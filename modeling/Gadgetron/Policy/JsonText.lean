import Gadgetron.Policy.Input

/-!
# The text of a JSON value

The compact text that `serde_json` writes, and that it is the text of one value only, whatever
follows it.
-/

namespace Gadgetron.Policy.Json

open Lib List

def escapeChar (c : Char) : List Char :=
  if c = '"' then ['\\', '"']
  else if c = '\\' then ['\\', '\\']
  else if c = '\x08' then ['\\', 'b']
  else if c = '\t' then ['\\', 't']
  else if c = '\n' then ['\\', 'n']
  else if c = '\x0c' then ['\\', 'f']
  else if c = '\r' then ['\\', 'r']
  else if c.toNat < 0x20 then
    ['\\', 'u', '0', '0', (c.toNat / 16).digitChar, (c.toNat % 16).digitChar]
  else [c]

def quoted (text : String) : List Char := '"' :: text.toList.flatMap escapeChar ++ ['"']

def separator (first : Bool) : List Char := if first then [] else [',']

mutual

/-- `serde_json::to_string`. -/
def compact : Json → List Char
  | .null => "null".toList
  | .bool value => if value then "true".toList else "false".toList
  | .number text => text.toList
  | .string value => quoted value
  | .array values => '[' :: compactValues true values
  | .object fields => '{' :: compactFields true fields

def compactValues (first : Bool) : List Json → List Char
  | [] => [']']
  | value :: values => separator first ++ compact value ++ compactValues false values

def compactFields (first : Bool) : List (String × Json) → List Char
  | [] => ['}']
  | (key, value) :: fields =>
    separator first ++ quoted key ++ ':' :: compact value ++ compactFields false fields

end

def isNumberChar (c : Char) : Bool := c.isDigit || ['-', '+', '.', 'e', 'E'].contains c

/-- Numbers are texts of their own characters, and the keys of an object are distinct. -/
inductive WellFormed : Json → Prop
  | null : WellFormed .null
  | bool (value : Bool) : WellFormed (.bool value)
  | number (text : String) (ne : text.toList ≠ []) (chars : ∀ c ∈ text.toList, isNumberChar c) :
      WellFormed (.number text)
  | string (value : String) : WellFormed (.string value)
  | array (values : List Json) (all : ∀ value ∈ values, WellFormed value) :
      WellFormed (.array values)
  | object (fields : List (String × Json)) (nodup : (fields.map Prod.fst).Nodup)
      (all : ∀ field ∈ fields, WellFormed field.2) : WellFormed (.object fields)

@[elab_as_elim]
theorem induction {motive : Json → Prop} (null : motive .null)
    (bool : ∀ value, motive (.bool value)) (number : ∀ text, motive (.number text))
    (string : ∀ value, motive (.string value))
    (array : ∀ values, (∀ value ∈ values, motive value) → motive (.array values))
    (object : ∀ fields : List (String × Json), (∀ field ∈ fields, motive field.2) →
      motive (.object fields)) (value : Json) : motive value :=
  @Json.rec motive (fun values => ∀ value ∈ values, motive value)
    (fun fields => ∀ field ∈ fields, motive field.2) (fun field => motive field.2)
    null bool number string array object
    (fun _ h => absurd h not_mem_nil)
    (fun _ _ hvalue hvalues => forall_mem_cons.2 ⟨hvalue, hvalues⟩)
    (fun _ h => absurd h not_mem_nil)
    (fun _ _ hfield hfields => forall_mem_cons.2 ⟨hfield, hfields⟩)
    (fun _ _ h => h) value

/-! ## Strings -/

/-- The first character of a text that is escaped, and what follows it. -/
def unescape : List Char → Option (Char × List Char)
  | [] => none
  | c :: rest =>
    if c = '\\' then
      match rest with
      | 'u' :: _ :: _ :: high :: low :: rest =>
        some (Char.ofNat (16 * hexValue high + hexValue low), rest)
      | 'b' :: rest => some ('\x08', rest)
      | 't' :: rest => some ('\t', rest)
      | 'n' :: rest => some ('\n', rest)
      | 'f' :: rest => some ('\x0c', rest)
      | 'r' :: rest => some ('\r', rest)
      | e :: rest => some (e, rest)
      | [] => none
    else some (c, rest)

theorem unescape_escapeChar (c : Char) (rest : List Char) :
    unescape (escapeChar c ++ rest) = some (c, rest) := by
  by_cases hspecial : c ∈ ['"', '\\', '\x08', '\t', '\n', '\x0c', '\r']
  · have hall : ∀ d ∈ ['"', '\\', '\x08', '\t', '\n', '\x0c', '\r'],
        unescape (escapeChar d ++ rest) = some (d, rest) := by simp [unescape, escapeChar]
    exact hall c hspecial
  simp only [mem_cons, not_mem_nil, or_false, not_or] at hspecial
  obtain ⟨hquote, hbackslash, hb, ht, hn, hf, hr⟩ := hspecial
  unfold escapeChar
  simp only [hquote, hbackslash, hb, ht, hn, hf, hr, if_false]
  split_ifs
  · have hchar : Char.ofNat (16 * hexValue (c.toNat / 16).digitChar +
        hexValue (c.toNat % 16).digitChar) = c := by
      rw [hexValue_digitChar (by omega), hexValue_digitChar (by omega), Nat.div_add_mod,
        Char.ofNat_toNat]
    exact congrArg (fun d => some (d, rest)) hchar
  · simp [unescape, hbackslash]

theorem head?_escapeChar (c : Char) (rest : List Char) :
    (escapeChar c ++ rest).head? ≠ some '"' := by
  unfold escapeChar
  split_ifs with hquote
  all_goals simp [hquote]

variable {rest rest' : List Char}

theorem escaped_append_inj {text text' : List Char}
    (h : text.flatMap escapeChar ++ '"' :: rest = text'.flatMap escapeChar ++ '"' :: rest') :
    text = text' ∧ rest = rest' := by
  induction text generalizing text' with
  | nil =>
    cases text' with
    | nil => exact ⟨rfl, (cons.inj h).2⟩
    | cons c text' =>
      rw [flatMap_cons, List.append_assoc] at h
      exact absurd (congrArg List.head? h).symm (head?_escapeChar c _)
  | cons c text ih =>
    cases text' with
    | nil =>
      rw [flatMap_cons, List.append_assoc] at h
      exact absurd (congrArg List.head? h) (head?_escapeChar c _)
    | cons d text' =>
      rw [flatMap_cons, flatMap_cons, List.append_assoc, List.append_assoc] at h
      have hfirst := congrArg unescape h
      rw [unescape_escapeChar, unescape_escapeChar, Option.some_inj, Prod.mk.injEq] at hfirst
      obtain ⟨htext, hrest⟩ := ih hfirst.2
      exact ⟨congrArg₂ _ hfirst.1 htext, hrest⟩

theorem quoted_append_inj {text text' : String} (h : quoted text ++ rest = quoted text' ++ rest') :
    text = text' ∧ rest = rest' := by
  have htail : text.toList.flatMap escapeChar ++ '"' :: rest =
      text'.toList.flatMap escapeChar ++ '"' :: rest' := by simpa [quoted] using h
  obtain ⟨htext, hrest⟩ := escaped_append_inj htail
  exact ⟨String.toList_inj.1 htext, hrest⟩

/-! ## Values -/

def Ends (rest : List Char) : Prop := ∀ c ∈ rest.head?, isNumberChar c = false

theorem number_append_inj {text text' : List Char} (h : ∀ c ∈ text, isNumberChar c)
    (h' : ∀ c ∈ text', isNumberChar c) (hrest : Ends rest) (hrest' : Ends rest')
    (heq : text ++ rest = text' ++ rest') : text = text' ∧ rest = rest' := by
  have htake : ∀ {text rest : List Char}, (∀ c ∈ text, isNumberChar c) → Ends rest →
      (text ++ rest).takeWhile isNumberChar = text := by
    intro text rest h hrest
    rw [takeWhile_append_of_pos h]
    cases rest with
    | nil => simp
    | cons c rest => simp [hrest c rfl]
  have htext : text = text' := by rw [← htake h hrest, heq, htake h' hrest']
  exact ⟨htext, append_cancel_left (htext ▸ heq)⟩

def kindOf (c : Char) : ℕ :=
  if c = 'n' then 0 else if c = 't' ∨ c = 'f' then 1 else if c = '"' then 3
  else if c = '[' then 4 else if c = '{' then 5 else if isNumberChar c then 6 else 7

def kind : Json → ℕ
  | .null => 0
  | .bool _ => 1
  | .string _ => 3
  | .array _ => 4
  | .object _ => 5
  | .number _ => 6

theorem head?_compact {value : Json} (h : value.WellFormed) (rest : List Char) :
    (value.compact ++ rest).head?.map kindOf = some value.kind := by
  cases h with
  | number text ne chars =>
    obtain ⟨c, l, hl⟩ := exists_cons_of_ne_nil ne
    have hc : isNumberChar c := chars c (hl ▸ mem_cons_self)
    have hne : ∀ d, isNumberChar d = false → c ≠ d := by
      rintro d hd rfl
      rw [hc] at hd
      cases hd
    have hkind : kindOf c = 6 := by
      simp [kindOf, hc, hne 'n' rfl, hne 't' rfl, hne 'f' rfl, hne '"' rfl, hne '[' rfl,
        hne '{' rfl]
    simp [compact, hl, kind, hkind]
  | bool value => cases value <;> simp [compact, kind, kindOf]
  | null | array | object => simp [compact, kind, kindOf]
  | string text => simp [compact, kind, kindOf, quoted]

theorem ends_cons {c : Char} (h : isNumberChar c = false) (rest : List Char) :
    Ends (c :: rest) := by
  rintro d ⟨⟩
  exact h

theorem ends_compactValues (values : List Json) (rest : List Char) :
    Ends (compactValues false values ++ rest) := by
  cases values with
  | nil => exact ends_cons (by decide) rest
  | cons value values => exact ends_cons (c := ',') (by decide) _

theorem ends_compactFields (fields : List (String × Json)) (rest : List Char) :
    Ends (compactFields false fields ++ rest) := by
  cases fields with
  | nil => exact ends_cons (by decide) rest
  | cons field fields => exact ends_cons (c := ',') (by decide) _

def Readable (value : Json) : Prop :=
  ∀ {value' rest rest'}, value.WellFormed → WellFormed value' → Ends rest → Ends rest' →
    value.compact ++ rest = value'.compact ++ rest' → value = value' ∧ rest = rest'

theorem bracket_ne {value : Json} (h : value.WellFormed) (first : Bool)
    (heq : ']' :: rest = separator first ++ value.compact ++ compactValues false values ++ rest') :
    False := by
  cases first with
  | false => exact absurd (cons.inj heq).1 (by decide)
  | true =>
    have hhead := head?_compact h (compactValues false values ++ rest')
    rw [← List.append_assoc, show value.compact ++ compactValues false values ++ rest' =
      ']' :: rest from heq.symm] at hhead
    cases value <;> cases hhead

theorem compactValues_append_inj {values values' : List Json} {first : Bool}
    (hread : ∀ value ∈ values, Readable value) (h : ∀ value ∈ values, WellFormed value)
    (h' : ∀ value ∈ values', WellFormed value)
    (heq : compactValues first values ++ rest = compactValues first values' ++ rest') :
    values = values' ∧ rest = rest' := by
  induction values generalizing values' first with
  | nil =>
    cases values' with
    | nil => exact ⟨rfl, (cons.inj heq).2⟩
    | cons value' values' => exact (bracket_ne (h' value' mem_cons_self) first heq).elim
  | cons value values ih =>
    cases values' with
    | nil => exact (bracket_ne (h value mem_cons_self) first heq.symm).elim
    | cons value' values' =>
      simp only [compactValues, List.append_assoc] at heq
      obtain ⟨hvalue, hrest⟩ := hread value mem_cons_self (h value mem_cons_self)
        (h' value' mem_cons_self) (ends_compactValues _ _) (ends_compactValues _ _)
        (append_cancel_left heq)
      obtain ⟨hvalues, hrest⟩ := ih (fun v hv => hread v (mem_cons_of_mem _ hv))
        (fun v hv => h v (mem_cons_of_mem _ hv))
        (fun v hv => h' v (mem_cons_of_mem _ hv)) hrest
      exact ⟨congrArg₂ _ hvalue hvalues, hrest⟩

theorem compactFields_append_inj {fields fields' : List (String × Json)} {first : Bool}
    (hread : ∀ field ∈ fields, Readable field.2) (h : ∀ field ∈ fields, WellFormed field.2)
    (h' : ∀ field ∈ fields', WellFormed field.2)
    (heq : compactFields first fields ++ rest = compactFields first fields' ++ rest') :
    fields = fields' ∧ rest = rest' := by
  induction fields generalizing fields' first with
  | nil =>
    cases fields' with
    | nil => exact ⟨rfl, (cons.inj heq).2⟩
    | cons field' fields' => cases first <;> exact absurd (cons.inj heq).1 (by decide)
  | cons field fields ih =>
    cases fields' with
    | nil => cases first <;> exact absurd (cons.inj heq).1 (by decide)
    | cons field' fields' =>
      simp only [compactFields, List.append_assoc, cons_append] at heq
      obtain ⟨hkey, htail⟩ := quoted_append_inj (append_cancel_left heq)
      obtain ⟨hvalue, hrest⟩ := hread field mem_cons_self (h field mem_cons_self)
        (h' field' mem_cons_self) (ends_compactFields _ _) (ends_compactFields _ _)
        (cons.inj htail).2
      obtain ⟨hfields, hrest⟩ := ih (fun f hf => hread f (mem_cons_of_mem _ hf))
        (fun f hf => h f (mem_cons_of_mem _ hf))
        (fun f hf => h' f (mem_cons_of_mem _ hf)) hrest
      exact ⟨congrArg₂ _ (Prod.ext hkey hvalue) hfields, hrest⟩

theorem kind_eq {value value' : Json} (h : value.WellFormed) (h' : value'.WellFormed)
    (heq : value.compact ++ rest = value'.compact ++ rest') : value.kind = value'.kind := by
  have hhead := head?_compact h rest
  rw [heq, head?_compact h' rest'] at hhead
  exact (Option.some.inj hhead).symm

theorem readable (value : Json) : Readable value := by
  induction value using Json.induction with
  | null =>
    intro value' rest rest' h h' hrest hrest' heq
    have hkind := kind_eq h h' heq
    cases value' with
    | null => exact ⟨rfl, append_cancel_left heq⟩
    | _ => cases hkind
  | bool value =>
    intro value' rest rest' h h' hrest hrest' heq
    have hkind := kind_eq h h' heq
    cases value' with
    | bool value' =>
      cases value <;> cases value'
      · exact ⟨rfl, append_cancel_left heq⟩
      · exact absurd (cons.inj heq).1 (by decide)
      · exact absurd (cons.inj heq).1 (by decide)
      · exact ⟨rfl, append_cancel_left heq⟩
    | _ => cases hkind
  | number text =>
    intro value' rest rest' h h' hrest hrest' heq
    have hkind := kind_eq h h' heq
    cases h with
    | number text ne chars =>
      cases h' with
      | number text' ne' chars' =>
        obtain ⟨htext, hrest⟩ := number_append_inj chars chars' hrest hrest' heq
        exact ⟨congrArg _ (String.toList_inj.1 htext), hrest⟩
      | _ => cases hkind
  | string text =>
    intro value' rest rest' h h' hrest hrest' heq
    have hkind := kind_eq h h' heq
    cases value' with
    | string text' =>
      obtain ⟨rfl, hrest⟩ := quoted_append_inj heq
      exact ⟨rfl, hrest⟩
    | _ => cases hkind
  | array values ih =>
    intro value' rest rest' h h' hrest hrest' heq
    have hkind := kind_eq h h' heq
    cases h with
    | array values all =>
      cases h' with
      | array values' all' =>
        obtain ⟨rfl, hrest⟩ := compactValues_append_inj ih all all' (cons.inj heq).2
        exact ⟨rfl, hrest⟩
      | _ => cases hkind
  | object fields ih =>
    intro value' rest rest' h h' hrest hrest' heq
    have hkind := kind_eq h h' heq
    cases h with
    | object fields nodup all =>
      cases h' with
      | object fields' nodup' all' =>
        obtain ⟨rfl, hrest⟩ := compactFields_append_inj ih all all' (cons.inj heq).2
        exact ⟨rfl, hrest⟩
      | _ => cases hkind

theorem compact_injective {value value' : Json} (h : value.WellFormed) (h' : value'.WellFormed)
    (heq : value.compact = value'.compact) : value = value' :=
  have hends : Ends [] := fun _ hc => by cases hc
  (@readable value value' [] [] h h' hends hends (by rw [heq])).1

end Gadgetron.Policy.Json
