import Gadgetron.Lib.Assoc
import Gadgetron.Policy.Input

/-!
# Values of JSON

`serde_json::Value` with the functions that read it, and changes made to every object of a value.
-/

namespace Gadgetron.Policy.Json

open Lib

def get (key : String) : Json → Option Json
  | .object fields => fields.lookup key
  | _ => none

def asStr : Json → Option String
  | .string text => some text
  | _ => none

def asArray : Json → Option (List Json)
  | .array values => some values
  | _ => none

def textField (key : String) (value : Json) : Option String := (value.get key).bind asStr

/-- `value[key] = new`; a value that is no object has no fields to set. -/
def set (key : String) : Json → Json → Json
  | .object fields, new => .object (insertKey key new fields)
  | value, _ => value

def remove (key : String) : Json → Json
  | .object fields => .object (fields.filter fun field => field.1 != key)
  | value => value

theorem textField_set_of_ne {key key' : String} (value new : Json) (h : key' ≠ key) :
    (value.set key new).textField key' = value.textField key' := by
  cases value with
  | object fields => simp only [set, textField, get, lookup_insertKey_of_ne new fields h]
  | _ => rfl

theorem textField_set_self {key key' text : String} {value : Json}
    (h : value.textField key' = some text) (new : Json) :
    (value.set key new).textField key = new.asStr := by
  cases value with
  | object fields => simp only [set, textField, get, lookup_insertKey_self, Option.bind_some]
  | _ => cases h

theorem textField_remove_of_ne {key key' : String} (value : Json) (h : key' ≠ key) :
    (value.remove key).textField key' = value.textField key' := by
  cases value with
  | object fields => simp only [remove, textField, get, lookup_filter_of_ne fields h]
  | _ => rfl

theorem get_remove_self (key : String) (value : Json) : (value.remove key).get key = none := by
  cases value with
  | object fields => exact lookup_filter_self key fields
  | _ => rfl

mutual

/-- `f` on the fields of every object, those inside others first. -/
def everywhere (f : List (String × Json) → List (String × Json)) : Json → Json
  | .array values => .array (everywhereValues f values)
  | .object fields => .object (f (everywhereFields f fields))
  | .null => .null
  | .bool value => .bool value
  | .number text => .number text
  | .string text => .string text

def everywhereValues (f : List (String × Json) → List (String × Json)) : List Json → List Json
  | [] => []
  | value :: values => everywhere f value :: everywhereValues f values

def everywhereFields (f : List (String × Json) → List (String × Json)) :
    List (String × Json) → List (String × Json)
  | [] => []
  | (key, value) :: fields => (key, everywhere f value) :: everywhereFields f fields

end

variable {f : List (String × Json) → List (String × Json)}

theorem everywhereFields_eq_map (fields : List (String × Json)) :
    everywhereFields f fields = fields.map fun field => (field.1, everywhere f field.2) := by
  induction fields with
  | nil => rfl
  | cons field fields ih => rw [everywhereFields, ih, List.map_cons]

theorem asStr_everywhere (value : Json) : (everywhere f value).asStr = value.asStr := by
  cases value <;> simp only [everywhere, asStr]

theorem textField_everywhereFields (key : String) (fields : List (String × Json)) :
    textField key (.object (everywhereFields f fields)) = textField key (.object fields) := by
  simp only [textField, get, everywhereFields_eq_map, lookup_mapValues]
  cases fields.lookup key with
  | none => rfl
  | some value => exact asStr_everywhere value

end Gadgetron.Policy.Json
