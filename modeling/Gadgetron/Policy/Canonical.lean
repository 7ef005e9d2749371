import Gadgetron.Policy.JsonText

/-!
# Canonical JSON

`canonical_json` is a canonical form: two values have the same text just when they are equal up to
the order of the keys in their objects.
-/

namespace Gadgetron.Policy

open Lib List Option

/-- Equal up to the order of the keys of objects, at every depth. -/
inductive SameUpToOrder : Json → Json → Prop
  | null : SameUpToOrder .null .null
  | bool (value : Bool) : SameUpToOrder (.bool value) (.bool value)
  | number (text : String) : SameUpToOrder (.number text) (.number text)
  | string (value : String) : SameUpToOrder (.string value) (.string value)
  | array {values values' : List Json} (length : values.length = values'.length)
      (all : ∀ (i : ℕ) (value value' : Json), values[i]? = some value → values'[i]? = some value' →
        SameUpToOrder value value') : SameUpToOrder (.array values) (.array values')
  | object {fields fields' : List (String × Json)}
      (keys : (fields.map Prod.fst).Perm (fields'.map Prod.fst))
      (all : ∀ (key : String) (value value' : Json), (key, value) ∈ fields →
        (key, value') ∈ fields' → SameUpToOrder value value') :
      SameUpToOrder (.object fields) (.object fields')

def canonicalField (field : String × Json) : String × Json := (field.1, canonicalJson field.2)

theorem canonicalValues_eq_map (values : List Json) :
    canonicalValues values = values.map canonicalJson := by
  induction values with
  | nil => rfl
  | cons value values ih => rw [canonicalValues, ih, map_cons]

theorem canonicalFields_eq_map (fields : List (String × Json)) :
    canonicalFields fields = fields.map canonicalField := by
  induction fields with
  | nil => rfl
  | cons field fields ih => rw [canonicalFields, ih, map_cons, canonicalField]

@[simp] theorem map_fst_canonicalField (fields : List (String × Json)) :
    (fields.map canonicalField).map Prod.fst = fields.map Prod.fst := by
  rw [List.map_map]
  rfl

abbrev byKey (a b : String × Json) : Ordering := compare a.1 b.1

theorem canonicalJson_object (fields : List (String × Json)) :
    canonicalJson (.object fields) = .object (sortBy byKey (fields.map canonicalField)) := by
  rw [canonicalJson, canonicalFields_eq_map]

theorem canonicalJson_array (values : List Json) :
    canonicalJson (.array values) = .array (values.map canonicalJson) := by
  rw [canonicalJson, canonicalValues_eq_map]

variable {u v : Json} {fields fields' : List (String × Json)}

theorem eq_of_key (hnodup : (fields.map Prod.fst).Nodup) {key : String} {value value' : Json}
    (h : (key, value) ∈ fields) (h' : (key, value') ∈ fields) : value = value' :=
  congrArg Prod.snd (inj_on_of_nodup_map hnodup h h' rfl)

theorem same_of_canonicalJson_eq (hu : u.WellFormed) (hv : v.WellFormed)
    (h : canonicalJson u = canonicalJson v) : SameUpToOrder u v := by
  induction u using Json.induction generalizing v with
  | array values ih =>
    cases hu with
    | array values all =>
      cases hv with
      | array values' all' =>
        rw [canonicalJson_array, canonicalJson_array, Json.array.injEq] at h
        refine .array (by simpa using congrArg List.length h) fun i value value' hi hi' => ?_
        have hvalue := congrArg (·[i]?) h
        simp only [getElem?_map, hi, hi', map_some, some_inj] at hvalue
        have hmem := mem_of_getElem? hi
        exact ih value hmem (all value hmem) (all' value' (mem_of_getElem? hi')) hvalue
      | object fields' => cases canonicalJson_object fields' ▸ canonicalJson_array values ▸ h
      | _ => cases canonicalJson_array values ▸ h
  | object fields ih =>
    cases hu with
    | object fields nodup all =>
      cases hv with
      | object fields' nodup' all' =>
        rw [canonicalJson_object, canonicalJson_object, Json.object.injEq] at h
        have hsorted := sortBy_perm byKey (fields.map canonicalField)
        rw [h] at hsorted
        have hperm := hsorted.symm.trans (sortBy_perm byKey _)
        have hkeys := hperm.map Prod.fst
        rw [map_fst_canonicalField, map_fst_canonicalField] at hkeys
        refine .object hkeys fun key value value' hmem hmem' => ?_
        obtain ⟨⟨key'', value''⟩, hfield, heq⟩ :=
          List.mem_map.1 (hperm.mem_iff.1 (List.mem_map_of_mem hmem))
        obtain ⟨rfl, hvalue⟩ := Prod.mk.injEq .. ▸ heq
        obtain rfl := eq_of_key nodup' hfield hmem'
        exact ih _ hmem (all _ hmem) (all' _ hmem') hvalue.symm
      | array values' => cases canonicalJson_array values' ▸ canonicalJson_object fields ▸ h
      | _ => cases canonicalJson_object fields ▸ h
  | _ =>
    cases hv with
    | array values' => cases canonicalJson_array values' ▸ h
    | object fields' => cases canonicalJson_object fields' ▸ h
    | _ => cases h <;> constructor

theorem mem_of_mem_sortBy_canonicalField {field : String × Json}
    (h : field ∈ sortBy byKey (fields.map canonicalField)) :
    ∃ original ∈ fields, canonicalField original = field :=
  List.mem_map.1 (mem_sortBy.1 h)

theorem wellFormed_canonicalJson (hu : u.WellFormed) : (canonicalJson u).WellFormed := by
  induction hu with
  | array values _ ih =>
    rw [canonicalJson_array]
    exact .array _ (List.forall_mem_map.2 ih)
  | object fields nodup _ ih =>
    rw [canonicalJson_object]
    refine .object _ ?_ fun field hfield => ?_
    · rw [((sortBy_perm byKey _).map Prod.fst).nodup_iff, map_fst_canonicalField]
      exact nodup
    · obtain ⟨original, hmem, rfl⟩ := mem_of_mem_sortBy_canonicalField hfield
      exact ih original hmem
  | _ =>
    rw [canonicalJson]
    constructor <;> assumption

theorem same_canonicalJson (hu : u.WellFormed) : SameUpToOrder (canonicalJson u) u := by
  induction hu with
  | array values _ ih =>
    rw [canonicalJson_array]
    refine .array (List.length_map _) fun i value value' hi hi' => ?_
    rw [getElem?_map, hi', map_some, some_inj] at hi
    exact hi ▸ ih value' (mem_of_getElem? hi')
  | object fields nodup _ ih =>
    rw [canonicalJson_object]
    refine .object ?_ fun key value value' hmem hmem' => ?_
    · exact map_fst_canonicalField fields ▸ (sortBy_perm byKey _).map Prod.fst
    · obtain ⟨⟨key', original⟩, horiginal, heq⟩ := mem_of_mem_sortBy_canonicalField hmem
      obtain ⟨rfl, rfl⟩ := Prod.mk.injEq .. ▸ heq
      obtain rfl := eq_of_key nodup horiginal hmem'
      exact ih _ horiginal
  | _ =>
    rw [canonicalJson]
    constructor

theorem canonicalJson_eq_of_same (hu : u.WellFormed) (hv : v.WellFormed)
    (h : SameUpToOrder u v) : canonicalJson u = canonicalJson v := by
  induction h with
  | array length all ih =>
    cases hu with
    | array values hall =>
      cases hv with
      | array values' hall' =>
        rw [canonicalJson_array, canonicalJson_array, Json.array.injEq]
        refine ext_getElem (by simpa using length) fun i hi hi' => ?_
        rw [List.length_map] at hi hi'
        rw [getElem_map, getElem_map]
        exact ih i _ _ (getElem?_eq_getElem hi) (getElem?_eq_getElem hi')
          (hall _ (getElem_mem hi)) (hall' _ (getElem_mem hi'))
  | @object fields fields' keys all ih =>
    cases hu with
    | object _ nodup hall =>
      cases hv with
      | object _ nodup' hall' =>
        rw [← map_fst_canonicalField] at nodup nodup'
        -- A field of either object is found in the other under the same key.
        have hmem : ∀ field, field ∈ fields.map canonicalField ↔
            field ∈ fields'.map canonicalField := by
          intro field
          constructor
          · intro hfield
            obtain ⟨⟨key, value⟩, hvalue, rfl⟩ := List.mem_map.1 hfield
            obtain ⟨⟨_, value'⟩, hvalue', rfl⟩ :=
              List.mem_map.1 (keys.mem_iff.1 (List.mem_map_of_mem hvalue))
            have heq := ih _ value value' hvalue hvalue' (hall _ hvalue) (hall' _ hvalue')
            exact List.mem_map.2 ⟨_, hvalue', congrArg (Prod.mk _) heq.symm⟩
          · intro hfield
            obtain ⟨⟨key, value'⟩, hvalue', rfl⟩ := List.mem_map.1 hfield
            obtain ⟨⟨_, value⟩, hvalue, rfl⟩ :=
              List.mem_map.1 (keys.mem_iff.2 (List.mem_map_of_mem hvalue'))
            have heq := ih _ value value' hvalue hvalue' (hall _ hvalue) (hall' _ hvalue')
            exact List.mem_map.2 ⟨_, hvalue, congrArg (Prod.mk _) heq⟩
        have hperm := (perm_ext_iff_of_nodup nodup.of_map nodup'.of_map).2 hmem
        rw [canonicalJson_object, canonicalJson_object,
          sortBy_eq_of_perm (fun a b => (rfl : byKey a b = compare a.1 b.1)) nodup hperm]
  | _ => rfl

variable {sha256 : List Char → String}

/-- Formatting twice changes nothing; the text and its digest tell apart exactly the values that
differ in more than the order of keys. -/
theorem canonicalJson_canonical (hinj : Function.Injective sha256) (hu : u.WellFormed)
    (hv : v.WellFormed) : canonicalJson (canonicalJson u) = canonicalJson u ∧
      ((canonicalJson u).compact = (canonicalJson v).compact ↔ SameUpToOrder u v) ∧
      (sha256 (canonicalJson u).compact = sha256 (canonicalJson v).compact ↔
        SameUpToOrder u v) := by
  have hcanonical := wellFormed_canonicalJson hu
  have htext : (canonicalJson u).compact = (canonicalJson v).compact ↔ SameUpToOrder u v := by
    constructor
    · intro h
      exact same_of_canonicalJson_eq hu hv
        (Json.compact_injective hcanonical (wellFormed_canonicalJson hv) h)
    · intro h
      rw [canonicalJson_eq_of_same hu hv h]
  exact ⟨canonicalJson_eq_of_same hcanonical hu (same_canonicalJson hu), htext,
    hinj.eq_iff.trans htext⟩

def sampleFields : List (String × Json) := [("b", .null), ("a", .bool true)]

theorem canonicalJson_canonical_swapped :
    canonicalJson (.object sampleFields) = .object sampleFields.reverse ∧
      ((canonicalJson (.object sampleFields)).compact =
        (canonicalJson (.object sampleFields.reverse)).compact ↔
          SameUpToOrder (.object sampleFields) (.object sampleFields.reverse)) := by
  have hwell : ∀ field ∈ sampleFields, field.2.WellFormed := by
    simp [sampleFields, Json.WellFormed.null, Json.WellFormed.bool]
  refine ⟨by rw [canonicalJson_object]; rfl, ?_⟩
  exact (canonicalJson_canonical (fun _ _ h => String.ofList_injective h)
    (.object sampleFields (by decide) hwell)
    (.object sampleFields.reverse (by decide) fun field h =>
      hwell field (mem_reverse.1 h))).2.1

end Gadgetron.Policy
