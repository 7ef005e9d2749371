import Gadgetron.Lib.Assoc
import Mathlib.Data.String.Basic

/-!
# Values of server profiles

`serde_json::Value` as far as profiles are layered and compared: objects keep their keys in order,
and numbers are of any type that can be compared (`0.0` and `-0.0`, which are equal, are one).
-/

namespace Gadgetron.Enrollment

open Lib List Option

inductive Value (N : Type) where
  | null
  | bool (value : Bool)
  | number (value : N)
  | string (value : String)
  | array (values : List (Value N))
  | object (fields : List (String × Value N))

variable {N : Type}

namespace Value

@[elab_as_elim, induction_eliminator]
theorem induction {motive : Value N → Prop} (null : motive .null)
    (bool : ∀ value, motive (.bool value)) (number : ∀ value, motive (.number value))
    (string : ∀ value, motive (.string value))
    (array : ∀ values, (∀ value ∈ values, motive value) → motive (.array values))
    (object : ∀ fields : List (String × Value N), (∀ field ∈ fields, motive field.2) →
      motive (.object fields)) (value : Value N) : motive value :=
  @Value.rec N motive (fun values => ∀ value ∈ values, motive value)
    (fun fields => ∀ field ∈ fields, motive field.2) (fun field => motive field.2)
    null bool number string array object
    (fun _ h => absurd h not_mem_nil)
    (fun _ _ hvalue hvalues => forall_mem_cons.2 ⟨hvalue, hvalues⟩)
    (fun _ h => absurd h not_mem_nil)
    (fun _ _ hfield hfields => forall_mem_cons.2 ⟨hfield, hfields⟩)
    (fun _ _ h => h) value

/-! ## Equality -/

section

variable [DecidableEq N]

mutual

/-- `PartialEq for Value`. -/
def equal : Value N → Value N → Bool
  | .null, .null => true
  | .bool a, .bool b => a == b
  | .number a, .number b => a == b
  | .string a, .string b => a == b
  | .array a, .array b => equalValues a b
  | .object a, .object b => equalFields a b
  | _, _ => false

def equalValues : List (Value N) → List (Value N) → Bool
  | [], [] => true
  | a :: as, b :: bs => equal a b && equalValues as bs
  | _, _ => false

def equalFields : List (String × Value N) → List (String × Value N) → Bool
  | [], [] => true
  | (k, a) :: as, (l, b) :: bs => k == l && equal a b && equalFields as bs
  | _, _ => false

end

theorem equalValues_iff {as : List (Value N)}
    (h : ∀ a ∈ as, ∀ b, equal a b = true ↔ a = b) (bs : List (Value N)) :
    equalValues as bs = true ↔ as = bs := by
  induction as generalizing bs with
  | nil => cases bs <;> simp [equalValues]
  | cons a as ih =>
    obtain ⟨ha, has⟩ := forall_mem_cons.1 h
    cases bs with
    | nil => simp [equalValues]
    | cons b bs => simp [equalValues, ha, ih has]

theorem equalFields_iff {as : List (String × Value N)}
    (h : ∀ a ∈ as, ∀ b, equal a.2 b = true ↔ a.2 = b) (bs : List (String × Value N)) :
    equalFields as bs = true ↔ as = bs := by
  induction as generalizing bs with
  | nil => cases bs <;> simp [equalFields]
  | cons a as ih =>
    obtain ⟨ha, has⟩ := forall_mem_cons.1 h
    cases bs with
    | nil => simp [equalFields]
    | cons b bs =>
      obtain ⟨k, a⟩ := a
      obtain ⟨l, b⟩ := b
      simp [equalFields, ha, ih has]

theorem equal_iff (a b : Value N) : equal a b = true ↔ a = b := by
  induction a generalizing b with
  | array values ih =>
    cases b with
    | array values' =>
      rw [equal, equalValues_iff (fun a ha b => ih a ha b), Value.array.injEq]
    | _ => simp [equal]
  | object fields ih =>
    cases b with
    | object fields' =>
      rw [equal, equalFields_iff (fun a ha b => ih a ha b), Value.object.injEq]
    | _ => simp [equal]
  | _ => cases b <;> simp [equal]

instance : DecidableEq (Value N) := fun a b => decidable_of_iff _ (equal_iff a b)

end

/-! ## Kinds, fields and paths -/

def kind : Value N → ℕ
  | .null => 0
  | .bool _ => 1
  | .number _ => 2
  | .string _ => 3
  | .array _ => 4
  | .object _ => 5

def get (key : String) : Value N → Option (Value N)
  | .object fields => fields.lookup key
  | _ => none

def at? : List String → Value N → Option (Value N)
  | [], value => some value
  | key :: keys, value => (value.get key).bind (at? keys)

/-- An object without its fields, any other value whole. -/
def node : Value N → Value N
  | .object _ => .object []
  | value => value

def nodeAt (keys : List String) (value : Option (Value N)) : Option (Value N) :=
  (value.bind (at? keys)).map node

@[simp] theorem nodeAt_none (keys : List String) : nodeAt keys (none : Option (Value N)) = none :=
  rfl

@[simp] theorem nodeAt_nil (value : Value N) : nodeAt [] (some value) = some value.node := rfl

@[simp] theorem nodeAt_cons (key : String) (keys : List String) (value : Value N) :
    nodeAt (key :: keys) (some value) = nodeAt keys (value.get key) := rfl

@[simp] theorem kind_node (value : Value N) : value.node.kind = value.kind := by
  cases value <;> rfl

variable {value : Value N}

theorem node_eq_self (h : value.kind ≠ 5) : value.node = value := by
  cases value with
  | object => exact absurd rfl h
  | _ => rfl

theorem get_eq_none (h : value.kind ≠ 5) (key : String) : value.get key = none := by
  cases value with
  | object => exact absurd rfl h
  | _ => rfl

theorem exists_array (h : value.kind = 4) : ∃ values, value = .array values := by
  cases value with
  | array values => exact ⟨values, rfl⟩
  | _ => cases h

theorem exists_object (h : value.kind = 5) : ∃ fields, value = .object fields := by
  cases value with
  | object fields => exact ⟨fields, rfl⟩
  | _ => cases h

/-! ## Objects with their keys in order -/

/-- Every object has its keys in order, each of them once. -/
inductive Ordered : Value N → Prop
  | null : Ordered .null
  | bool (value : Bool) : Ordered (.bool value)
  | number (value : N) : Ordered (.number value)
  | string (value : String) : Ordered (.string value)
  | array {values : List (Value N)} (values_ordered : ∀ value ∈ values, Ordered value) :
      Ordered (.array values)
  | object {fields : List (String × Value N)} (ascending : Ascending fields)
      (fields_ordered : ∀ field ∈ fields, Ordered field.2) : Ordered (.object fields)

variable {fields : List (String × Value N)}

theorem Ordered.ascending (h : (Value.object fields).Ordered) : Ascending fields := by
  cases h with
  | object ascending _ => exact ascending

theorem Ordered.get {value field : Value N} (h : value.Ordered) (key : String)
    (hfield : value.get key = some field) : field.Ordered := by
  cases h with
  | object ascending fields_ordered =>
    exact fields_ordered (key, field) ((lookup_eq_some_iff ascending).1 hfield)
  | _ => cases hfield

theorem Ordered.insertKey {key : String}
    (hvalue : value.Ordered) (h : (Value.object fields).Ordered) :
    (Value.object (Lib.insertKey key value fields)).Ordered := by
  refine .object (ascending_insertKey key value h.ascending) fun field hfield => ?_
  rcases mem_insertKey hfield with rfl | hfield
  · exact hvalue
  · exact h.get field.1 ((lookup_eq_some_iff h.ascending).2 hfield)

variable {a b : Value N}

theorem Ordered.ext (ha : a.Ordered) (hb : b.Ordered)
    (h : ∀ keys, nodeAt keys (some a) = nodeAt keys (some b)) : a = b := by
  induction a generalizing b with
  | object fields ih =>
    have hroot : some (Value.object []) = some b.node := h []
    have hkind : b.kind = 5 := by rw [← kind_node, ← some.inj hroot]; rfl
    obtain ⟨fields', rfl⟩ := exists_object hkind
    refine congrArg Value.object (eq_of_lookup ha.ascending hb.ascending fun key => ?_)
    have hfield : ∀ keys, nodeAt keys (fields.lookup key) = nodeAt keys (fields'.lookup key) :=
      fun keys => h (key :: keys)
    cases hv : fields.lookup key with
    | none =>
      rw [hv] at hfield
      cases hw : fields'.lookup key with
      | none => rfl
      | some w => rw [hw] at hfield; exact absurd (hfield []) (by simp)
    | some v =>
      rw [hv] at hfield
      cases hw : fields'.lookup key with
      | none => rw [hw] at hfield; exact absurd (hfield []) (by simp)
      | some w =>
        rw [hw] at hfield
        exact congrArg some (ih _ ((lookup_eq_some_iff ha.ascending).1 hv)
          (ha.get key hv) (hb.get key hw) hfield)
  | _ =>
    have hroot := some.inj (h [])
    have hkind := congrArg kind hroot
    rw [kind_node, kind_node] at hkind
    have hleaf : b.kind ≠ 5 := by rw [← hkind]; simp [kind]
    rw [node_eq_self hleaf] at hroot
    exact hroot

/-! ## Kinds that agree -/

def SameKind (a b : Option (Value N)) : Prop := ∀ x ∈ a, ∀ y ∈ b, x.kind = y.kind

def Agree (a b : Option (Value N)) : Prop := ∀ keys, SameKind (nodeAt keys a) (nodeAt keys b)

theorem agree_object {a b : List (String × Value N)} :
    Agree (some (.object a)) (some (.object b)) ↔ ∀ key, Agree (a.lookup key) (b.lookup key) := by
  constructor
  · exact fun h key keys => h (key :: keys)
  · intro h keys
    cases keys with
    | nil =>
      intro x hx y hy
      rw [← some.inj hx, ← some.inj hy]
      rfl
    | cons key keys => exact h key keys

theorem agree_none_left (b : Option (Value N)) : Agree none b := fun _ _ h => by cases h

theorem agree_none_right (a : Option (Value N)) : Agree a none := fun _ _ _ _ h => by cases h

theorem agree_leaf (ha : a.kind ≠ 5) (h : a.kind = b.kind) :
    Agree (some a) (some b) := fun keys => by
  cases keys with
  | nil =>
    intro x hx y hy
    rw [← some.inj hx, ← some.inj hy, kind_node, kind_node, h]
  | cons key keys =>
    rw [nodeAt_cons, get_eq_none ha]
    exact fun x hx => by cases hx

theorem not_agree (h : a.kind ≠ b.kind) : ¬Agree (some a) (some b) := fun hagree =>
  h (by rw [← kind_node a, ← kind_node b]; exact hagree [] _ rfl _ rfl)

theorem Agree.symm {a b : Option (Value N)} (h : Agree a b) : Agree b a :=
  fun keys x hx y hy => (h keys y hy x hx).symm

/-- Any two of the layers have values of one kind wherever both have one. -/
def LayersAgree (layers : List (Value N)) : Prop :=
  ∀ a ∈ layers, ∀ b ∈ layers, Agree (some a) (some b)

variable {layers : List (Value N)}

theorem layersAgree_concat {layer : Value N} : LayersAgree (layers ++ [layer]) ↔
      LayersAgree layers ∧ ∀ a ∈ layers, Agree (some a) (some layer) := by
  constructor
  · exact fun h => ⟨fun a ha b hb => h a (mem_append_left _ ha) b (mem_append_left _ hb),
      fun a ha => h a (mem_append_left _ ha) layer
        (mem_append_right _ (mem_singleton_self _))⟩
  · rintro ⟨hlayers, hlayer⟩ a ha b hb
    rcases mem_append.1 ha with ha | ha <;> rcases mem_append.1 hb with hb | hb
    · exact hlayers a ha b hb
    · exact mem_singleton.1 hb ▸ hlayer a ha
    · rw [mem_singleton.1 ha]
      exact fun keys x hx y hy => (hlayer b hb keys y hy x hx).symm
    · rw [mem_singleton.1 ha, mem_singleton.1 hb]
      exact fun keys x hx y hy => by rw [mem_unique hx hy]

theorem layersAgree_cons {first : Value N} : LayersAgree (first :: layers) ↔
      LayersAgree layers ∧ ∀ a ∈ layers, Agree (some a) (some first) := by
  constructor
  · exact fun h => ⟨fun a ha b hb => h a (mem_cons_of_mem _ ha) b (mem_cons_of_mem _ hb),
      fun a ha => h a (mem_cons_of_mem _ ha) first mem_cons_self⟩
  · rintro ⟨hlayers, hfirst⟩ a ha b hb
    rcases mem_cons.1 ha with haf | hal <;> rcases mem_cons.1 hb with hbf | hbl
    · rw [haf, hbf]
      exact fun keys x hx y hy => by rw [mem_unique hx hy]
    · exact haf ▸ (hfirst b hbl).symm
    · exact hbf ▸ hfirst a hal
    · exact hlayers a hal b hbl

theorem layersAgree_single (layer : Value N) : LayersAgree [layer] :=
  layersAgree_cons.2 ⟨fun _ h => absurd h not_mem_nil, fun _ h => absurd h not_mem_nil⟩

theorem arrays_or_not (keys : List String) (h : LayersAgree layers) :
    (∀ layer ∈ layers, ∀ x ∈ nodeAt keys (some layer), x.kind = 4) ∨
      ∀ layer ∈ layers, ∀ x ∈ nodeAt keys (some layer), x.kind ≠ 4 := by
  by_cases harray : ∃ layer ∈ layers, ∃ x ∈ nodeAt keys (some layer), x.kind = 4
  · obtain ⟨a, ha, x, hx, hkind⟩ := harray
    exact .inl fun b hb y hy => (h b hb a ha keys y hy x hx).trans hkind
  · exact .inr fun b hb y hy hkind => harray ⟨b, hb, y, hy, hkind⟩

/-! ## Layers -/

def lastAt (keys : List String) (layers : List (Value N)) : Option (Value N) :=
  (layers.filterMap fun layer => nodeAt keys (some layer)).getLast?

def asArray : Value N → Option (List (Value N))
  | .array values => some values
  | _ => none

def arraysAt (keys : List String) (layers : List (Value N)) : List (List (Value N)) :=
  layers.filterMap fun layer => (nodeAt keys (some layer)).bind asArray

variable {keys : List String}

theorem mem_arraysAt {values : List (Value N)} (h : values ∈ arraysAt keys layers) :
    ∃ layer ∈ layers, nodeAt keys (some layer) = some (.array values) := by
  obtain ⟨layer, hlayer, hvalues⟩ := mem_filterMap.1 h
  obtain ⟨node, hnode, harray⟩ := bind_eq_some_iff.1 hvalues
  cases node with
  | array => exact ⟨layer, hlayer, by rw [hnode, some.inj harray]⟩
  | _ => cases harray

theorem lastAt_arrays (h : ∀ layer ∈ layers, ∀ x ∈ nodeAt keys (some layer), x.kind = 4) :
    lastAt keys layers = (arraysAt keys layers).getLast?.map Value.array := by
  have hmap : (layers.filterMap fun layer => nodeAt keys (some layer)) =
      (arraysAt keys layers).map Value.array := by
    rw [arraysAt, map_filterMap]
    refine filterMap_congr fun layer hlayer => ?_
    cases hnode : nodeAt keys (some layer) with
    | none => rfl
    | some node =>
      obtain ⟨values, rfl⟩ := exists_array (h layer hlayer node hnode)
      rfl
  rw [lastAt, hmap, getLast?_map]

end Value

abbrev Spec (N : Type) := {value : Value N // value.Ordered ∧ value.kind = 5}

end Gadgetron.Enrollment
