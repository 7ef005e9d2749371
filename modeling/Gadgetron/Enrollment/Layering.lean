import Gadgetron.Enrollment.ProfileValue
import Gadgetron.Lib.KeyPath
import Gadgetron.Lib.OrdSet
import Gadgetron.Lib.Text

/-!
# Layers of a server profile

`compose_profiles` merges objects key by key, unites the arrays at four paths and replaces other
values by ones of the same kind.
-/

namespace Gadgetron.Enrollment

open Lib List

variable {N : Type} [DecidableEq N]

def unionArrayPath (path : String) : Bool :=
  path = "$.commissioning.required_checks" || path = "$.qualification.required_checks" ||
    path = "$.setup.packages" || path = "$.setup.features"

def pushMissing (base overlay : List (Value N)) : List (Value N) :=
  overlay.foldl (fun base value => if value ∈ base then base else base ++ [value]) base

def replaceValue (path : String) (overrides : List String) (base overlay : Value N) :
    Except String (Value N × List String) :=
  if base.kind = overlay.kind then
    if base ≠ overlay then .ok (overlay, overrides ++ [path]) else .ok (base, overrides)
  else .error path

mutual

def mergeValue (path : String) (overrides : List String) (base : Value N) :
    Value N → Except String (Value N × List String)
  | .object overlay =>
    match base with
    | .object base =>
      (mergeFields path overrides base overlay).map fun merged => (.object merged.1, merged.2)
    | base => replaceValue path overrides base (.object overlay)
  | .array overlay =>
    match base with
    | .array base =>
      if unionArrayPath path then
        .ok (.array (pushMissing base overlay),
          if (pushMissing base overlay).length ≠ base.length then overrides ++ [path]
          else overrides)
      else replaceValue path overrides (.array base) (.array overlay)
    | base => replaceValue path overrides base (.array overlay)
  | .null => replaceValue path overrides base .null
  | .bool overlay => replaceValue path overrides base (.bool overlay)
  | .number overlay => replaceValue path overrides base (.number overlay)
  | .string overlay => replaceValue path overrides base (.string overlay)

def mergeFields (path : String) (overrides : List String) (base : List (String × Value N)) :
    List (String × Value N) → Except String (List (String × Value N) × List String)
  | [] => .ok (base, overrides)
  | (key, value) :: overlay =>
    match base.lookup key with
    | some existing =>
      match mergeValue (path ++ "." ++ key) overrides existing value with
      | .ok (merged, overrides) =>
        mergeFields path overrides (insertKey key merged base) overlay
      | .error path => .error path
    | none => mergeFields path overrides (insertKey key value base) overlay

end

def isObject (value : Value N) : Bool := value.kind = 5

def mergeLayers (effective : Value N) (overrides : List String) :
    List (Value N) → Except String (Value N × List String)
  | [] => .ok (effective, overrides)
  | overlay :: layers =>
    match mergeValue "$" overrides effective overlay with
    | .ok (merged, overrides) => mergeLayers merged overrides layers
    | .error path => .error path

def composeProfiles (specs : List (Value N)) : Except String (Value N × List String) :=
  match specs with
  | [] => .error "$"
  | first :: layers =>
    if (first :: layers).any fun spec => !isObject spec then .error "$"
    else (mergeLayers first [] layers).map fun merged =>
      (merged.1, (OrdSet.ofList merged.2).toList)

/-! ## Uniting arrays -/

theorem pushMissing_concat (base overlay : List (Value N)) (value : Value N) :
    pushMissing base (overlay ++ [value]) =
      if value ∈ pushMissing base overlay then pushMissing base overlay
      else pushMissing base overlay ++ [value] := by
  rw [pushMissing, foldl_append]
  rfl

theorem mem_pushMissing {base overlay : List (Value N)} {value : Value N} :
    value ∈ pushMissing base overlay ↔ value ∈ base ∨ value ∈ overlay := by
  induction overlay using List.reverseRecOn with
  | nil => simp [pushMissing]
  | append_singleton overlay new ih =>
    rw [pushMissing_concat]
    split_ifs with hnew
    · rw [ih, mem_append, mem_singleton]
      constructor
      · exact fun h => h.imp_right .inl
      · rintro (h | h | rfl)
        · exact .inl h
        · exact .inr h
        · exact ih.1 hnew
    · simp only [mem_append, ih, or_assoc]

theorem pushMissing_assoc (a b c : List (Value N)) :
    pushMissing (pushMissing a b) c = pushMissing a (pushMissing b c) := by
  induction c using List.reverseRecOn with
  | nil => rfl
  | append_singleton c value ih =>
    rw [pushMissing_concat, ih, pushMissing_concat b]
    by_cases hvalue : value ∈ pushMissing b c
    · rw [if_pos hvalue, if_pos (mem_pushMissing.2 (.inr hvalue))]
    · rw [if_neg hvalue, pushMissing_concat]

/-! ## What stands at a path -/

namespace Value

/-- What two layers have at a path, the second one over the first. -/
def combine (path : String) : Option (Value N) → Option (Value N) → Option (Value N)
  | some (.array base), some (.array overlay) =>
    if unionArrayPath path then some (.array (pushMissing base overlay))
    else some (.array overlay)
  | base, overlay => overlay.or base

/-- At every path under `path` the combination of what the two have. -/
def Merged (path : String) (a b merged : Option (Value N)) : Prop :=
  ∀ keys, nodeAt keys merged = combine (renderKeys path keys) (nodeAt keys a) (nodeAt keys b)

theorem combine_none_left (path : String) (b : Option (Value N)) : combine path none b = b := by
  cases b <;> rfl

theorem combine_none_right (path : String) (a : Option (Value N)) : combine path a none = a := by
  cases a with
  | none => rfl
  | some a => cases a <;> rfl

variable {path : String} {a b : Option (Value N)}

theorem combine_eq_or
    (h : unionArrayPath path = false ∨ ∀ y ∈ b, y.kind ≠ 4) : combine path a b = b.or a := by
  unfold combine
  split
  · rename_i base overlay
    rcases h with h | h
    · rw [h]
      rfl
    · exact absurd rfl (h _ rfl)
  · rfl

theorem combine_array (h : unionArrayPath path = true) (a b : List (Value N)) :
    combine path (some (.array a)) (some (.array b)) = some (.array (pushMissing a b)) :=
  if_pos h

theorem kind_combine (h : SameKind a b) (k : ℕ) :
    (∀ x ∈ combine path a b, x.kind = k) ↔ (∀ x ∈ a, x.kind = k) ∧ ∀ x ∈ b, x.kind = k := by
  cases a with
  | none => simp [combine_none_left]
  | some a =>
    cases b with
    | none => simp [combine_none_right]
    | some b =>
      have hkind : a.kind = b.kind := h a rfl b rfl
      have hcombined : ∃ c, combine path (some a) (some b) = some c ∧ c.kind = b.kind := by
        unfold combine
        split
        · rename_i base overlay ha hb
          cases hb
          split_ifs
          · exact ⟨_, rfl, rfl⟩
          · exact ⟨_, rfl, rfl⟩
        · exact ⟨b, rfl, rfl⟩
      obtain ⟨c, hc, hck⟩ := hcombined
      simp [hc, hck, hkind]

theorem combine_assoc {a b c : Option (Value N)} (hab : SameKind a b) (hbc : SameKind b c) :
    combine path (combine path a b) c = combine path a (combine path b c) := by
  cases a with
  | none => rw [combine_none_left, combine_none_left]
  | some a =>
    cases b with
    | none => rw [combine_none_right, combine_none_left]
    | some b =>
      cases c with
      | none => rw [combine_none_right, combine_none_right]
      | some c =>
        have hb := hab a rfl b rfl
        have hc := hbc b rfl c rfl
        by_cases hunion : unionArrayPath path = true ∧ c.kind = 4
        · obtain ⟨hpath, hkind⟩ := hunion
          obtain ⟨a, rfl⟩ := exists_array (hb.trans (hc.trans hkind))
          obtain ⟨b, rfl⟩ := exists_array (hc.trans hkind)
          obtain ⟨c, rfl⟩ := exists_array hkind
          rw [combine_array hpath, combine_array hpath, combine_array hpath,
            combine_array hpath, pushMissing_assoc]
        · have hor : unionArrayPath path = false ∨ ∀ y ∈ some c, y.kind ≠ 4 := by
            by_cases hpath : unionArrayPath path = true
            · exact .inr fun y hy => Option.some.inj hy ▸ fun h => hunion ⟨hpath, h⟩
            · exact .inl (Bool.eq_false_iff.2 hpath)
          rw [combine_eq_or hor, combine_eq_or hor, Option.some_or, Option.some_or,
            combine_eq_or hor, Option.some_or]

/-! ## Merging described by paths -/

theorem merged_object {a b m : List (String × Value N)} :
    Merged path (some (.object a)) (some (.object b)) (some (.object m)) ↔
      ∀ key, Merged (path ++ "." ++ key) (a.lookup key) (b.lookup key) (m.lookup key) := by
  constructor
  · exact fun h key keys => h (key :: keys)
  · intro h keys
    cases keys with
    | nil => rfl
    | cons key keys => exact h key keys

theorem merged_none_left (path : String) (b : Option (Value N)) : Merged path none b b :=
  fun _ => (combine_none_left _ _).symm

theorem merged_none_right (path : String) (a : Option (Value N)) : Merged path a none a :=
  fun _ => (combine_none_right _ _).symm

theorem merged_leaf {a b m : Value N} (ha : a.kind ≠ 5) (hb : b.kind ≠ 5)
    (hm : m.kind ≠ 5) (hroot : some m = combine path (some a) (some b)) :
    Merged path (some a) (some b) (some m) := fun keys => by
  cases keys with
  | nil =>
    rw [nodeAt_nil, nodeAt_nil, nodeAt_nil, node_eq_self ha, node_eq_self hb, node_eq_self hm]
    exact hroot
  | cons key keys =>
    rw [nodeAt_cons, nodeAt_cons, nodeAt_cons, get_eq_none ha, get_eq_none hb, get_eq_none hm]
    rfl

def Outcome (path : String) (base overlay : Value N) : Except String (Value N × List String) → Prop
  | .ok merged => Agree (some base) (some overlay) ∧ merged.1.Ordered ∧
      Merged path (some base) (some overlay) (some merged.1)
  | .error _ => ¬Agree (some base) (some overlay)

variable {base overlay : Value N}

theorem combine_of_kind (h : overlay.kind = 4 → unionArrayPath path = false) :
    combine path (some base) (some overlay) = some overlay := by
  rw [combine_eq_or]
  · rfl
  · by_cases harray : overlay.kind = 4
    · exact .inl (h harray)
    · exact .inr fun y hy => Option.some.inj hy ▸ harray

theorem replaceValue_outcome (path : String) (overrides : List String)
    (hoverlay : overlay.Ordered) (hleaf : base.kind = overlay.kind → overlay.kind ≠ 5)
    (hunion : overlay.kind = base.kind → overlay.kind = 4 → unionArrayPath path = false) :
    Outcome path base overlay (replaceValue path overrides base overlay) := by
  by_cases hkind : base.kind = overlay.kind
  · have hresult : ∃ overrides', replaceValue path overrides base overlay =
        .ok (overlay, overrides') := by
      rw [replaceValue, if_pos hkind]
      by_cases hne : base ≠ overlay
      · exact ⟨_, if_pos hne⟩
      · exact ⟨overrides, by rw [if_neg hne, not_not.1 hne]⟩
    obtain ⟨overrides', hresult⟩ := hresult
    rw [hresult]
    have hbase : base.kind ≠ 5 := hkind ▸ hleaf hkind
    exact ⟨agree_leaf hbase hkind, hoverlay, merged_leaf hbase (hleaf hkind) (hleaf hkind)
      (combine_of_kind (hunion hkind.symm)).symm⟩
  · rw [replaceValue, if_neg hkind]
    exact not_agree hkind

theorem outcome_insert {path key : String} {value merged : Value N}
    {base overlay : List (String × Value N)} {result : Except String (Value N × List String)}
    (hfirst : overlay.lookup key = none)
    (hagree : Agree (base.lookup key) (some value))
    (hmerged : Merged (path ++ "." ++ key) (base.lookup key) (some value) (some merged))
    (h : Outcome path (.object (insertKey key merged base)) (.object overlay) result)
    (hobject : ∀ m, result = .ok m → m.1.kind = 5) :
    Outcome path (.object base) (.object ((key, value) :: overlay)) result := by
  have hbase : ∀ key', key' ≠ key →
      (insertKey key merged base).lookup key' = base.lookup key' := fun key' hne =>
    lookup_insertKey_of_ne merged base hne
  have hoverlay : ∀ key', key' ≠ key →
      ((key, value) :: overlay).lookup key' = overlay.lookup key' := fun key' hne =>
    lookup_cons_of_ne value overlay hne
  have hself : ((key, value) :: overlay).lookup key = some value := lookup_cons_self
  cases result with
  | error =>
      refine fun hall => h (agree_object.2 fun key' => ?_)
      by_cases hkey : key' = key
      · rw [hkey, hfirst]
        exact agree_none_right _
      · rw [hbase key' hkey, ← hoverlay key' hkey]
        exact agree_object.1 hall key'
  | ok m =>
    obtain ⟨hall, hordered, hmerge⟩ := h
    obtain ⟨fields, hfields⟩ := exists_object (hobject m rfl)
    refine ⟨agree_object.2 fun key' => ?_, hordered, ?_⟩
    · by_cases hkey : key' = key
      · rw [hkey, hself]
        exact hagree
      · rw [hoverlay key' hkey, ← hbase key' hkey]
        exact agree_object.1 hall key'
    · rw [hfields] at hmerge ⊢
      refine merged_object.2 fun key' => ?_
      have hthere := merged_object.1 hmerge key'
      by_cases hkey : key' = key
      · rw [hkey, lookup_insertKey_self, hfirst] at hthere
        rw [hkey, hself]
        intro keys
        rw [hthere keys, nodeAt_none, combine_none_right]
        exact hmerged keys
      · rw [hoverlay key' hkey, ← hbase key' hkey]
        exact hthere

theorem mergeFields_outcome (path : String) {overlay : List (String × Value N)}
    (ih : ∀ field ∈ overlay, ∀ path overrides, ∀ base : Value N, base.Ordered →
      field.2.Ordered → Outcome path base field.2 (mergeValue path overrides base field.2))
    (overrides : List String) {base : List (String × Value N)}
    (hbase : (Value.object base).Ordered) (hoverlay : (Value.object overlay).Ordered) :
    Outcome path (.object base) (.object overlay)
      ((mergeFields path overrides base overlay).map fun merged =>
        (.object merged.1, merged.2)) := by
  induction overlay generalizing overrides base with
  | nil =>
    exact ⟨agree_object.2 fun key => agree_none_right _, hbase,
      merged_object.2 fun key => merged_none_right _ _⟩
  | cons field overlay ihoverlay =>
    obtain ⟨key, value⟩ := field
    obtain ⟨hvalue, hrest⟩ := forall_mem_cons.1 ih
    obtain ⟨hless, hascending⟩ := pairwise_cons.1 hoverlay.ascending
    have hordered : value.Ordered := hoverlay.get key lookup_cons_self
    have hfields : (Value.object overlay).Ordered := by
      cases hoverlay with
      | object _ fields_ordered =>
        exact .object hascending fun f hf => fields_ordered f (mem_cons_of_mem _ hf)
    have hfirst : overlay.lookup key = none := by
      rw [lookup_eq_none_iff]
      exact fun f hf => bne_iff_ne.2 (ne_of_lt (hless f hf))
    have hobject : ∀ (result : Except String (List (String × Value N) × List String)) m,
        (result.map fun merged => (Value.object merged.1, merged.2)) = .ok m → m.1.kind = 5 := by
      intro result m h
      cases result with
      | error => cases h
      | ok => cases h; rfl
    rw [mergeFields]
    cases hexisting : base.lookup key with
    | none =>
      refine outcome_insert hfirst (hexisting ▸ agree_none_left _)
        (hexisting ▸ merged_none_left _ _) ?_ (hobject _)
      exact ihoverlay hrest overrides (hordered.insertKey hbase) hfields
    | some existing =>
      have hone := hvalue (path ++ "." ++ key) overrides existing (hbase.get key hexisting) hordered
      dsimp only
      cases hmerge : mergeValue (path ++ "." ++ key) overrides existing value with
      | error place =>
        rw [hmerge] at hone
        exact fun hall => hone (by
          have hkey := agree_object.1 hall key
          rwa [hexisting, lookup_cons_self] at hkey)
      | ok merged =>
        rw [hmerge] at hone
        obtain ⟨hagree, hmergedOrdered, hmerged⟩ := hone
        refine outcome_insert hfirst (hexisting ▸ hagree) (hexisting ▸ hmerged) ?_ (hobject _)
        exact ihoverlay hrest merged.2 (hmergedOrdered.insertKey hbase) hfields

/-- Merging succeeds exactly when the kinds agree, and then combines what stands at each path. -/
theorem mergeValue_outcome (path : String) (overrides : List String)
    (hbase : base.Ordered) (hoverlay : overlay.Ordered) :
    Outcome path base overlay (mergeValue path overrides base overlay) := by
  induction overlay generalizing path overrides base with
  | object overlay ih =>
    by_cases hobject : base.kind = 5
    · obtain ⟨base, rfl⟩ := exists_object hobject
      exact mergeFields_outcome path
        (fun field hfield path overrides base hbase hordered =>
          ih field hfield path overrides hbase hordered) overrides hbase hoverlay
    · have hcall : mergeValue path overrides base (.object overlay) =
          replaceValue path overrides base (.object overlay) := by
        cases base with
        | object => exact absurd rfl hobject
        | _ => rfl
      rw [hcall]
      exact replaceValue_outcome path overrides hoverlay (fun h => absurd h hobject)
        fun _ h => absurd h (by simp [kind])
  | array overlay ih =>
    by_cases hunion : base.kind = 4 ∧ unionArrayPath path = true
    · obtain ⟨hkind, hpath⟩ := hunion
      obtain ⟨base, rfl⟩ := exists_array hkind
      have hordered : (Value.array (pushMissing base overlay)).Ordered := by
        cases hbase with
        | array base_ordered =>
          cases hoverlay with
          | array overlay_ordered =>
            exact .array fun value hvalue => (mem_pushMissing.1 hvalue).elim
              (base_ordered value) (overlay_ordered value)
      simp only [mergeValue, hpath, if_true]
      exact ⟨agree_leaf (by simp [kind]) rfl, hordered,
        merged_leaf (by simp [kind]) (by simp [kind]) (by simp [kind])
          (combine_array hpath base overlay).symm⟩
    · have hcall : mergeValue path overrides base (.array overlay) =
          replaceValue path overrides base (.array overlay) := by
        cases base with
        | array base =>
          have hpath : unionArrayPath path ≠ true := fun h => hunion ⟨rfl, h⟩
          simp only [mergeValue, if_neg hpath]
        | _ => rfl
      rw [hcall]
      exact replaceValue_outcome path overrides hoverlay (fun _ h => by cases h)
        fun h _ => Bool.eq_false_iff.2 fun hpath => hunion ⟨h.symm, hpath⟩
  | _ =>
    exact replaceValue_outcome path overrides hoverlay (fun _ h => by cases h)
      fun _ h => by cases h

/-! ## Layers -/

/-- What the layers have at a path, each combined over those before it. -/
def stack (keys : List String) (layers : List (Value N)) : Option (Value N) :=
  layers.foldl
    (fun under layer => combine (renderKeys "$" keys) under (nodeAt keys (some layer))) none

theorem stack_concat (keys : List String) (layers : List (Value N)) (layer : Value N) :
    stack keys (layers ++ [layer]) =
      combine (renderKeys "$" keys) (stack keys layers) (nodeAt keys (some layer)) := by
  rw [stack, foldl_append]
  rfl

variable {layers : List (Value N)}

theorem kind_stack {keys : List String} (h : LayersAgree layers)
    (k : ℕ) : (∀ x ∈ stack keys layers, x.kind = k) ↔
      ∀ layer ∈ layers, ∀ x ∈ nodeAt keys (some layer), x.kind = k := by
  induction layers using List.reverseRecOn generalizing k with
  | nil => simp [stack]
  | append_singleton layers layer ih =>
    obtain ⟨hlayers, hlayer⟩ := layersAgree_concat.1 h
    have hsame : SameKind (stack keys layers) (nodeAt keys (some layer)) := fun x hx y hy =>
      (ih hlayers y.kind).2 (fun below hbelow z hz => hlayer below hbelow keys z hz y hy) x hx
    rw [stack_concat, kind_combine hsame, ih hlayers, forall_mem_append, forall_mem_singleton]

variable {effective layer : Value N}

theorem agree_of_stack (hagree : LayersAgree layers)
    (hstack : ∀ keys, nodeAt keys (some effective) = stack keys layers) :
    Agree (some effective) (some layer) ↔ ∀ a ∈ layers, Agree (some a) (some layer) := by
  constructor
  · intro h a ha keys x hx y hy
    exact (kind_stack hagree y.kind).1
      (fun z hz => h keys z (by rw [hstack]; exact hz) y hy) a ha x hx
  · intro h keys x hx y hy
    rw [hstack] at hx
    exact (kind_stack hagree y.kind).2 (fun a ha z hz => h a ha keys z hz y hy) x hx

structure Effective (layers : List (Value N)) (effective : Value N) : Prop where
  agree : LayersAgree layers
  ordered : effective.Ordered
  object : effective.kind = 5
  stack : ∀ keys, nodeAt keys (some effective) = Value.stack keys layers

theorem Effective.unique {a b : Value N} (ha : Effective layers a)
    (hb : Effective layers b) : a = b :=
  ha.ordered.ext hb.ordered fun keys => (ha.stack keys).trans (hb.stack keys).symm

theorem Effective.of_layer {layer : Value N} (hordered : layer.Ordered) (hobject : layer.kind = 5) :
    Effective [layer] layer where
  agree := layersAgree_single layer
  ordered := hordered
  object := hobject
  stack keys := (combine_none_left (renderKeys "$" keys) _).symm

theorem Effective.mergeValue
    (h : Effective layers effective) (hordered : layer.Ordered) (hobject : layer.kind = 5)
    (overrides : List String) : match mergeValue "$" overrides effective layer with
    | .ok merged => Effective (layers ++ [layer]) merged.1
    | .error _ => ¬LayersAgree (layers ++ [layer]) := by
  have houtcome := mergeValue_outcome "$" overrides h.ordered hordered
  have hagree : LayersAgree (layers ++ [layer]) ↔ Agree (some effective) (some layer) := by
    rw [layersAgree_concat, agree_of_stack h.agree h.stack]
    exact and_iff_right h.agree
  cases hmerge : Enrollment.mergeValue "$" overrides effective layer with
  | error =>
    rw [hmerge] at houtcome
    exact fun hall => houtcome (hagree.1 hall)
  | ok merged =>
    rw [hmerge] at houtcome
    obtain ⟨hkinds, hmergedOrdered, hmerged⟩ := houtcome
    refine ⟨hagree.2 hkinds, hmergedOrdered, ?_, fun keys => ?_⟩
    · have hroot := hmerged []
      rw [nodeAt_nil, nodeAt_nil, nodeAt_nil, combine_eq_or, Option.some_or] at hroot
      · rw [← kind_node, Option.some.inj hroot, kind_node, hobject]
      · refine .inr fun y hy => ?_
        rw [← Option.some.inj hy, kind_node, hobject]
        decide
    · rw [stack_concat, ← h.stack]
      exact hmerged keys

theorem Effective.mergeLayers {done : List (Value N)} {effective : Value N}
    (h : Effective done effective) (overrides : List String)
    (hlayers : ∀ layer ∈ layers, layer.Ordered ∧ layer.kind = 5) :
    match mergeLayers effective overrides layers with
    | .ok merged => Effective (done ++ layers) merged.1
    | .error _ => ¬LayersAgree (done ++ layers) := by
  induction layers generalizing done effective overrides with
  | nil =>
    rw [append_nil]
    exact h
  | cons layer layers ih =>
    obtain ⟨⟨hordered, hobject⟩, hlayers⟩ := forall_mem_cons.1 hlayers
    have hone := h.mergeValue hordered hobject overrides
    have happend : done ++ layer :: layers = (done ++ [layer]) ++ layers := by simp
    rw [Enrollment.mergeLayers, happend]
    cases hmerge : Enrollment.mergeValue "$" overrides effective layer with
    | error =>
      rw [hmerge] at hone
      exact fun hall => hone fun a ha b hb =>
        hall a (mem_append_left _ ha) b (mem_append_left _ hb)
    | ok merged =>
      rw [hmerge] at hone
      exact ih hone merged.2 hlayers

end Value

open Value

theorem composeProfiles_outcome (first : Spec N) (layers : List (Spec N)) :
    match composeProfiles ((first :: layers).map Subtype.val) with
    | .ok composed => Effective ((first :: layers).map Subtype.val) composed.1
    | .error _ => ¬LayersAgree ((first :: layers).map Subtype.val) := by
  have hobjects : ((first :: layers).map Subtype.val).any (fun spec => !isObject spec) = false := by
    rw [List.any_eq_false]
    intro value hvalue
    obtain ⟨spec, -, rfl⟩ := List.mem_map.1 hvalue
    simp [isObject, spec.2.2]
  have hlayers : ∀ layer ∈ layers.map Subtype.val, layer.Ordered ∧ layer.kind = 5 := by
    intro value hvalue
    obtain ⟨spec, -, rfl⟩ := List.mem_map.1 hvalue
    exact spec.2
  have hloop := (Effective.of_layer first.2.1 first.2.2).mergeLayers [] hlayers
  rw [map_cons] at hobjects ⊢
  rw [composeProfiles, hobjects]
  cases hmerge : mergeLayers first.1 [] (layers.map Subtype.val) with
  | error | ok =>
    rw [hmerge] at hloop
    exact hloop

/-! ## What a profile has from its layers -/

namespace Value

/-- The section and the name of each array whose elements are united. -/
def unionArrays : List (String × String) :=
  [("commissioning", "required_checks"), ("qualification", "required_checks"),
    ("setup", "packages"), ("setup", "features")]

theorem dotless_unionArrays : ∀ array ∈ unionArrays, '.' ∉ array.1.toList ∧ '.' ∉ array.2.toList :=
  forall_mem_of_all (by decide)

theorem unionArrayPath_eq (path : String) : unionArrayPath path =
      unionArrays.any fun array => path = renderKeys "$" [array.1, array.2] := by
  have hcommissioning : renderKeys "$" ["commissioning", "required_checks"] =
      "$.commissioning.required_checks" := by decide
  have hqualification : renderKeys "$" ["qualification", "required_checks"] =
      "$.qualification.required_checks" := by decide
  have hpackages : renderKeys "$" ["setup", "packages"] = "$.setup.packages" := by decide
  have hfeatures : renderKeys "$" ["setup", "features"] = "$.setup.features" := by decide
  simp only [unionArrays, any_cons, any_nil, hcommissioning, hqualification, hpackages,
    hfeatures, unionArrayPath, Bool.or_assoc, Bool.or_false]

theorem unionArrayPath_iff (keys : List String) : unionArrayPath (renderKeys "$" keys) = true ↔
      ∃ array ∈ unionArrays, keys = [array.1, array.2] ∨ keys = [array.1 ++ "." ++ array.2] := by
  rw [unionArrayPath_eq, List.any_eq_true]
  refine exists_congr fun array => and_congr_right fun harray => ?_
  obtain ⟨hfirst, hsecond⟩ := dotless_unionArrays array harray
  rw [decide_eq_true_eq, renderKeys_inj_right, dotted_eq_pair_iff hfirst hsecond]

variable {layers : List (Value N)} {keys : List String}

theorem stack_eq_lastAt (h : unionArrayPath (renderKeys "$" keys) = false ∨
      ∀ layer ∈ layers, ∀ x ∈ nodeAt keys (some layer), x.kind ≠ 4) :
    stack keys layers = lastAt keys layers := by
  induction layers using List.reverseRecOn with
  | nil => rfl
  | append_singleton layers layer ih =>
    have hlayers := ih (h.imp_right fun hall a ha => hall a (mem_append_left _ ha))
    have hlayer := h.imp_right fun hall =>
      hall layer (mem_append_right _ (mem_singleton_self _))
    rw [stack_concat, combine_eq_or hlayer, hlayers, lastAt, lastAt, filterMap_append]
    cases hnode : nodeAt keys (some layer) with
    | none | some => simp [hnode]

theorem stack_arrays (hpath : unionArrayPath (renderKeys "$" keys) = true)
    (h : ∀ layer ∈ layers, ∀ x ∈ nodeAt keys (some layer), x.kind = 4) :
    stack keys layers = (arraysAt keys layers).head?.map fun first =>
      .array (pushMissing first (arraysAt keys layers).tail.flatten) := by
  induction layers using List.reverseRecOn with
  | nil => rfl
  | append_singleton layers layer ih =>
    obtain ⟨hlayers, hlayer⟩ := forall_mem_append.1 h
    rw [stack_concat, ih hlayers, arraysAt, arraysAt, filterMap_append]
    cases hnode : nodeAt keys (some layer) with
    | none => simp [hnode, combine_none_right]
    | some node =>
      obtain ⟨values, rfl⟩ := exists_array (hlayer layer (mem_singleton_self _) node hnode)
      have hsingle : [layer].filterMap (fun layer =>
          (nodeAt keys (some layer)).bind asArray) = [values] := by
        simp [hnode, asArray]
      rw [hsingle]
      cases hbelow : layers.filterMap fun layer =>
          (nodeAt keys (some layer)).bind asArray with
      | nil => rw [head?_nil, Option.map_none, combine_none_left]; rfl
      | cons first rest =>
        simp only [head?_cons, Option.map_some, tail_cons, cons_append,
          combine_array hpath, flatten_append, flatten_singleton]
        rw [pushMissing, pushMissing, pushMissing, foldl_append]

/-! ## Grouping -/

theorem stack_cons {first : Value N} (h : LayersAgree (first :: layers)) :
    stack keys (first :: layers) =
      combine (renderKeys "$" keys) (nodeAt keys (some first)) (stack keys layers) := by
  induction layers using List.reverseRecOn with
  | nil =>
    rw [stack, foldl_cons, combine_none_left]
    exact (combine_none_right _ _).symm
  | append_singleton layers layer ih =>
    rw [← cons_append] at h ⊢
    obtain ⟨hlayers, hlayer⟩ := layersAgree_concat.1 h
    obtain ⟨hfirst, hrest⟩ := forall_mem_cons.1 hlayer
    have hbelow : LayersAgree layers := fun a ha b hb =>
      hlayers a (mem_cons_of_mem _ ha) b (mem_cons_of_mem _ hb)
    have hunder : SameKind (nodeAt keys (some first)) (stack keys layers) := fun x hx y hy =>
      ((kind_stack hbelow x.kind).2 (fun a ha z hz =>
        hlayers a (mem_cons_of_mem _ ha) first mem_cons_self keys z hz x hx) y hy).symm
    have habove : SameKind (stack keys layers) (nodeAt keys (some layer)) := fun x hx y hy =>
      (kind_stack hbelow y.kind).2 (fun a ha z hz => hrest a ha keys z hz y hy) x hx
    rw [stack_concat, ih hlayers, combine_assoc hunder habove, stack_concat]

theorem Effective.under {under layer effective : Value N} (h : Effective layers under) :
    Effective [under, layer] effective ↔ Effective (layers ++ [layer]) effective := by
  have hagree : LayersAgree [under, layer] ↔ LayersAgree (layers ++ [layer]) := by
    have hpair : LayersAgree [under, layer] ↔ Agree (some under) (some layer) := by
      rw [layersAgree_cons, forall_mem_singleton, and_iff_right (layersAgree_single layer)]
      exact ⟨Agree.symm, Agree.symm⟩
    rw [hpair, layersAgree_concat, ← agree_of_stack h.agree h.stack, and_iff_right h.agree]
  have hstack : ∀ keys, Value.stack keys [under, layer] = Value.stack keys (layers ++ [layer]) :=
      fun keys => by
    rw [stack_concat, ← h.stack, Value.stack, foldl_cons, foldl_cons, combine_none_left]
    rfl
  constructor
  · exact fun he => ⟨hagree.1 he.agree, he.ordered, he.object,
      fun keys => (he.stack keys).trans (hstack keys)⟩
  · exact fun he => ⟨hagree.2 he.agree, he.ordered, he.object,
      fun keys => (he.stack keys).trans (hstack keys).symm⟩

theorem Effective.above {above first effective : Value N} (h : Effective layers above) :
    Effective [first, above] effective ↔ Effective (first :: layers) effective := by
  have hagree : LayersAgree [first, above] ↔ LayersAgree (first :: layers) := by
    rw [layersAgree_cons, forall_mem_singleton, and_iff_right (layersAgree_single above),
      layersAgree_cons, and_iff_right h.agree]
    exact agree_of_stack h.agree h.stack
  have hstack : LayersAgree (first :: layers) → ∀ keys,
      Value.stack keys [first, above] = Value.stack keys (first :: layers) := fun hall keys => by
    rw [stack_cons hall, ← h.stack, Value.stack, foldl_cons, foldl_cons, combine_none_left]
    rfl
  constructor
  · intro he
    have hall := hagree.1 he.agree
    exact ⟨hall, he.ordered, he.object, fun keys => (he.stack keys).trans (hstack hall keys)⟩
  · exact fun he => ⟨hagree.2 he.agree, he.ordered, he.object,
      fun keys => (he.stack keys).trans (hstack he.agree keys).symm⟩

end Value

/-! ## Three layers -/

/-- The layers compose to `effective`. -/
def Composes (layers : List (Value N)) (effective : Value N) : Prop :=
  ∃ overrides, composeProfiles layers = .ok (effective, overrides)

theorem composes_iff (first : Spec N) (layers : List (Spec N)) (effective : Value N) :
    Composes ((first :: layers).map Subtype.val) effective ↔
      Effective ((first :: layers).map Subtype.val) effective := by
  have houtcome := composeProfiles_outcome first layers
  unfold Composes
  cases hcompose : composeProfiles ((first :: layers).map Subtype.val) with
  | error =>
    rw [hcompose] at houtcome
    refine iff_of_false ?_ fun h => houtcome h.agree
    rintro ⟨overrides, h⟩
    cases h
  | ok composed =>
    rw [hcompose] at houtcome
    constructor
    · rintro ⟨overrides, h⟩
      cases h
      exact houtcome
    · intro h
      exact ⟨composed.2, congrArg Except.ok (Prod.ext (houtcome.unique h) rfl)⟩

theorem exists_effective (first : Spec N) (layers : List (Spec N))
    (h : LayersAgree ((first :: layers).map Subtype.val)) :
    ∃ effective, Effective ((first :: layers).map Subtype.val) effective := by
  have houtcome := composeProfiles_outcome first layers
  cases hcompose : composeProfiles ((first :: layers).map Subtype.val) with
  | error =>
    rw [hcompose] at houtcome
    exact absurd h houtcome
  | ok composed =>
    rw [hcompose] at houtcome
    exact ⟨composed.1, houtcome⟩

theorem composes_under (a b c : Spec N) (effective : Value N) : Composes [a.1, b.1, c.1] effective ↔
      ∃ under, Composes [a.1, b.1] under ∧ Composes [under, c.1] effective := by
  have hthree := composes_iff a [b, c] effective
  constructor
  · intro h
    have hall := hthree.1 h
    obtain ⟨under, hunder⟩ := exists_effective a [b] fun x hx y hy =>
      hall.agree x (mem_append_left [c.1] hx) y (mem_append_left [c.1] hy)
    exact ⟨under, (composes_iff a [b] under).2 hunder,
      (composes_iff ⟨under, hunder.ordered, hunder.object⟩ [c] effective).2 (hunder.under.2 hall)⟩
  · rintro ⟨under, hunder, h⟩
    have hpair := (composes_iff a [b] under).1 hunder
    exact hthree.2 (hpair.under.1
      ((composes_iff ⟨under, hpair.ordered, hpair.object⟩ [c] effective).1 h))

theorem composes_above (a b c : Spec N) (effective : Value N) : Composes [a.1, b.1, c.1] effective ↔
      ∃ above, Composes [b.1, c.1] above ∧ Composes [a.1, above] effective := by
  have hthree := composes_iff a [b, c] effective
  constructor
  · intro h
    have hall := hthree.1 h
    obtain ⟨above, habove⟩ := exists_effective b [c] (layersAgree_cons.1 hall.agree).1
    exact ⟨above, (composes_iff b [c] above).2 habove,
      (composes_iff a [⟨above, habove.ordered, habove.object⟩] effective).2 (habove.above.2 hall)⟩
  · rintro ⟨above, habove, h⟩
    have hpair := (composes_iff b [c] above).1 habove
    exact hthree.2 (hpair.above.1
      ((composes_iff a [⟨above, hpair.ordered, hpair.object⟩] effective).1 h))

def emptySpec : Spec N := ⟨.object [], .object List.Pairwise.nil (by simp), rfl⟩

theorem effective_empty (a : Spec N) :
    Effective [a.1, .object []] a.1 ∧ Effective [.object [], a.1] a.1 := by
  obtain ⟨fields, hfields⟩ := exists_object a.2.2
  have hagree : Agree (some (.object [])) (some a.1) := by
    rw [hfields]
    exact agree_object.2 fun _ => agree_none_left _
  have hcombine : ∀ keys,
      combine (renderKeys "$" keys) (nodeAt keys (some a.1)) (nodeAt keys (some (.object []))) =
        nodeAt keys (some a.1) ∧
      combine (renderKeys "$" keys) (nodeAt keys (some (.object []))) (nodeAt keys (some a.1)) =
        nodeAt keys (some a.1) := fun keys => by
    rw [hfields]
    cases keys with
    | nil => exact ⟨rfl, rfl⟩
    | cons key keys => exact ⟨combine_none_right _ _, combine_none_left _ _⟩
  have hstack : ∀ (first second : Value N) keys, stack keys [first, second] =
      combine (renderKeys "$" keys) (nodeAt keys (some first)) (nodeAt keys (some second)) :=
    fun first second keys => by
      rw [stack, foldl_cons, foldl_cons, combine_none_left]
      rfl
  constructor
  · exact ⟨layersAgree_cons.2 ⟨layersAgree_single _, forall_mem_singleton.2 hagree⟩, a.2.1,
      a.2.2, fun keys => ((hstack _ _ keys).trans (hcombine keys).1).symm⟩
  · exact ⟨layersAgree_cons.2 ⟨layersAgree_single _, forall_mem_singleton.2 hagree.symm⟩,
      a.2.1, a.2.2, fun keys => ((hstack _ _ keys).trans (hcombine keys).2).symm⟩

def IsUnionArray (effective : Value N) (keys : List String) : Prop :=
  ∃ array ∈ unionArrays, keys = [array.1, array.2] ∧
    ∃ values, nodeAt keys (some effective) = some (.array values)

/-- Three layers are composed as they should. -/
structure Layered (a b c : Spec N) : Prop where
  under : ∀ effective, Composes [a.1, b.1, c.1] effective ↔
    ∃ under, Composes [a.1, b.1] under ∧ Composes [under, c.1] effective
  above : ∀ effective, Composes [a.1, b.1, c.1] effective ↔
    ∃ above, Composes [b.1, c.1] above ∧ Composes [a.1, above] effective
  neutral : Composes [a.1, .object []] a.1 ∧ Composes [.object [], a.1] a.1
  last : ∀ effective, Composes [a.1, b.1, c.1] effective → ∀ keys,
    ¬IsUnionArray effective keys → nodeAt keys (some effective) = lastAt keys [a.1, b.1, c.1]
  union : ∀ effective, Composes [a.1, b.1, c.1] effective → ∀ array ∈ unionArrays, ∀ values,
    nodeAt [array.1, array.2] (some effective) = some (.array values) → ∀ value, value ∈ values ↔
        ∃ values' ∈ arraysAt [array.1, array.2] [a.1, b.1, c.1], value ∈ values'

/-- Where the layers agree on kinds, the arrays that they hold under a key spelled like the path of
an array that is united make up the last of these arrays. -/
def DotsHarmless (layers : List (Value N)) : Prop :=
  LayersAgree layers → ∀ array ∈ unionArrays, ∀ first rest,
    arraysAt [array.1 ++ "." ++ array.2] layers = first :: rest →
      (first :: rest).getLast? = some (pushMissing first rest.flatten)

theorem stack_dotted_iff {layers : List (Value N)} (hagree : LayersAgree layers)
    {array : String × String} (harray : array ∈ unionArrays) :
    stack [array.1 ++ "." ++ array.2] layers = lastAt [array.1 ++ "." ++ array.2] layers ↔
      ∀ first rest, arraysAt [array.1 ++ "." ++ array.2] layers = first :: rest →
        (first :: rest).getLast? = some (pushMissing first rest.flatten) := by
  have hpath : unionArrayPath (renderKeys "$" [array.1 ++ "." ++ array.2]) = true :=
    (unionArrayPath_iff _).2 ⟨array, harray, .inr rfl⟩
  rcases arrays_or_not [array.1 ++ "." ++ array.2] hagree with hkinds | hkinds
  · rw [stack_arrays hpath hkinds, lastAt_arrays hkinds]
    cases harrays : arraysAt [array.1 ++ "." ++ array.2] layers with
    | nil => simp
    | cons first rest =>
      have hinj : Function.Injective (Value.array (N := N)) := fun _ _ h => Value.array.inj h
      simp only [head?_cons, Option.map_some, tail_cons, cons.injEq]
      rw [← Option.map_some, (Option.map_injective hinj).eq_iff]
      constructor
      · rintro h first' rest' ⟨rfl, rfl⟩
        exact h.symm
      · exact fun h => (h first rest ⟨rfl, rfl⟩).symm
  · refine iff_of_true (stack_eq_lastAt (.inr hkinds)) fun first rest harrays => ?_
    obtain ⟨layer, hlayer, hnode⟩ := mem_arraysAt (harrays ▸ mem_cons_self)
    exact absurd rfl (hkinds layer hlayer _ hnode)

/-- Layers are composed as they should exactly when no key with a dot in it is taken for the path of
an array that is united. -/
theorem layered_iff (a b c : Spec N) : Layered a b c ↔ DotsHarmless [a.1, b.1, c.1] := by
  have hcomposes : ∀ effective, Composes [a.1, b.1, c.1] effective ↔
      Effective [a.1, b.1, c.1] effective := composes_iff a [b, c]
  constructor
  · intro h hagree array harray first rest harrays
    obtain ⟨effective, heffective⟩ : ∃ effective, Effective [a.1, b.1, c.1] effective :=
      exists_effective a [b, c] hagree
    refine (stack_dotted_iff hagree harray).1 ?_ first rest harrays
    rw [← heffective.stack]
    refine h.last effective ((hcomposes effective).2 heffective) _ ?_
    rintro ⟨array', -, hkeys, -⟩
    exact absurd (congrArg List.length hkeys) (by simp)
  · intro h
    refine ⟨composes_under a b c, composes_above a b c, ?_, ?_, ?_⟩
    · obtain ⟨hright, hleft⟩ := effective_empty a
      exact ⟨(composes_iff a [emptySpec] a.1).2 hright, (composes_iff emptySpec [a] a.1).2 hleft⟩
    · intro effective hcompose keys hunion
      have heffective := (hcomposes effective).1 hcompose
      rw [heffective.stack]
      by_cases hpath : unionArrayPath (renderKeys "$" keys) = true
      · obtain ⟨array, harray, hkeys | hkeys⟩ := (unionArrayPath_iff keys).1 hpath
        · rcases arrays_or_not keys heffective.agree with hkinds | hkinds
          · rw [stack_arrays hpath hkinds, lastAt_arrays hkinds]
            cases harrays : arraysAt keys [a.1, b.1, c.1] with
            | nil => rfl
            | cons first rest =>
              refine absurd ⟨array, harray, hkeys, ?_⟩ hunion
              exact ⟨_, by rw [heffective.stack, stack_arrays hpath hkinds, harrays]; rfl⟩
          · exact stack_eq_lastAt (.inr hkinds)
        · subst hkeys
          exact (stack_dotted_iff heffective.agree harray).2 (h heffective.agree array harray)
      · exact stack_eq_lastAt (.inl (Bool.eq_false_iff.2 hpath))
    · intro effective hcompose array harray values hvalues value
      have heffective := (hcomposes effective).1 hcompose
      have hpath : unionArrayPath (renderKeys "$" [array.1, array.2]) = true :=
        (unionArrayPath_iff _).2 ⟨array, harray, .inl rfl⟩
      rw [heffective.stack] at hvalues
      have hkinds := (kind_stack heffective.agree 4).1 fun x hx => by
        rw [Option.mem_unique hx hvalues]
        rfl
      rw [stack_arrays hpath hkinds] at hvalues
      cases harrays : arraysAt [array.1, array.2] [a.1, b.1, c.1] with
      | nil =>
        rw [harrays] at hvalues
        cases hvalues
      | cons first rest =>
        rw [harrays] at hvalues
        rw [← Value.array.inj (Option.some.inj hvalues), mem_pushMissing, mem_flatten]
        simp

/-! ## Samples -/

/-- A profile whose root holds an array under a key with a dot. -/
def dottedSpec (package : String) : Spec Empty :=
  ⟨.object [("setup.packages", .array [.string package])],
    .object (pairwise_singleton _ _) (by
      simp only [forall_mem_singleton]
      exact .array (forall_mem_singleton.2 (.string package))), rfl⟩

/-- The later array should have replaced the earlier one. -/
theorem dotted_not_layered : ¬Layered (dottedSpec "dcgm") (dottedSpec "lldpd") emptySpec := by
  intro h
  have hcompose : Composes [(dottedSpec "dcgm").1, (dottedSpec "lldpd").1, emptySpec.1]
      (.object [("setup.packages", .array [.string "dcgm", .string "lldpd"])]) :=
    ⟨["$.setup.packages"], by decide +kernel⟩
  have hlast := h.last _ hcompose ["setup.packages"] (by
    rintro ⟨array, -, hkeys, -⟩
    exact absurd (congrArg List.length hkeys) (by simp))
  exact absurd hlast (by decide)

end Gadgetron.Enrollment
