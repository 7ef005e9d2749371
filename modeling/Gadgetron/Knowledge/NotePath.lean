import Gadgetron.Jobs.ChangeSet
import Gadgetron.Knowledge.NoteBatch
import Mathlib.Data.List.DropRight

/-!
# Paths of notes

`domain_note_relative_path` makes the name of a note, `validate_note_relative_path` checks it before
the commit and `is_materialized_note_path` before the registration.
-/

namespace Gadgetron.Knowledge

open Lib List

section

variable (env : VaultEnv) (toLowercase : Char → List Char)

/-- What the loop over a title appends to the slug; `characters` counts what the slug has. -/
def slugChars : List Char → (separator : Bool) → (characters : ℕ) → List Char
  | [], _, _ => []
  | c :: rest, separator, characters =>
    if env.isAlphanumeric c then
      toLowercase c ++
        (if 80 ≤ characters + (toLowercase c).length then []
        else slugChars rest false (characters + (toLowercase c).length))
    else if separator then
      if 80 ≤ characters then [] else slugChars rest true characters
    else '-' :: (if 80 ≤ characters + 1 then [] else slugChars rest true (characters + 1))

def slug (title : String) : List Char :=
  let slug := (slugChars env toLowercase (trim title).toList true 0).rdropWhile (· = '-')
  if slug = [] then "note".toList else slug

/-- The first eight digits of `id.simple()`. -/
def idDigits (id : Uuid) : List Char := (Uuid.toText id).toList.take 8

def domainNoteRelativePath (directory : List Char) (title : String) (id : Uuid) :
    Except VaultError (List Char) :=
  if validNotePathPrefix directory then
    .ok (directory ++ '/' :: (slug env toLowercase title ++ "--".toList ++ idDigits id ++ mdSuffix))
  else .error (.invalidNotePath directory)

/-! ## The condition -/

def readChars : List Char → (separator : Bool) → (characters : ℕ) → List Char
  | [], _, _ => []
  | c :: rest, separator, characters =>
    c ::
      if env.isAlphanumeric c then
        if 80 ≤ characters + (toLowercase c).length then []
        else readChars rest false (characters + (toLowercase c).length)
      else if separator then
        if 80 ≤ characters then [] else readChars rest true characters
      else if 80 ≤ characters + 1 then [] else readChars rest true (characters + 1)

/-- Letters and digits of a title stay so, or turn to hyphens, in lower case. -/
def LowersToNames (title : String) : Prop :=
  ∀ c ∈ readChars env toLowercase (trim title).toList true 0, env.isAlphanumeric c = true →
    ∀ l ∈ toLowercase c, env.isAlphanumeric l = true ∨ l = '-'

/-- What is documented of `Uuid::parse_str`: no form of a UUID has two dashes in a row. -/
def VaultEnv.ParsesUuids : Prop :=
  ∀ stem, env.isUuid stem = true → ¬['-', '-'] <:+: stem

/-- What is documented of the character classes: ASCII letters and digits are the only alphanumeric
ASCII characters, and the lower-case form of a character has at most three. -/
structure VaultEnv.FollowsUnicode : Prop where
  ascii : ∀ c : Char, c.toNat < 128 → env.isAlphanumeric c = c.isAlphanum
  lowercase : ∀ c, (toLowercase c).length ≤ 3

variable {env toLowercase} {directory : List Char} {title : String} {id : Uuid}

/-! ## The slug -/

theorem forall_slugChars_iff (chars : List Char) (separator : Bool) (characters : ℕ) :
    (∀ l ∈ slugChars env toLowercase chars separator characters,
        env.isAlphanumeric l = true ∨ l = '-') ↔
      ∀ c ∈ readChars env toLowercase chars separator characters, env.isAlphanumeric c = true →
        ∀ l ∈ toLowercase c, env.isAlphanumeric l = true ∨ l = '-' := by
  induction chars generalizing separator characters with
  | nil => simp [slugChars, readChars]
  | cons c rest ih =>
    rw [slugChars, readChars]
    by_cases hc : env.isAlphanumeric c = true
    · simp only [hc, if_true, forall_mem_append, forall_mem_cons, true_imp_iff]
      refine and_congr_right fun _ => ?_
      split_ifs with hlong
      · simp
      · exact ih false _
    · simp only [hc, if_false, forall_mem_cons, false_imp_iff, true_and,
        Bool.false_eq_true]
      split_ifs with hseparator hlong hlong
      · simp
      · exact ih true _
      · simp
      · simp only [forall_mem_cons, or_true, true_and]
        exact ih true _

theorem length_slugChars_le (hlowercase : ∀ c, (toLowercase c).length ≤ 3) (chars : List Char)
    (separator : Bool) {characters : ℕ} (h : characters < 80) :
    (slugChars env toLowercase chars separator characters).length + characters ≤ 82 := by
  induction chars generalizing separator characters with
  | nil => simp only [slugChars, length_nil]; omega
  | cons c rest ih =>
    have hthree := hlowercase c
    rw [slugChars]
    split_ifs with hc hlong hseparator hlong hlong
    · rw [append_nil]
      omega
    · have hrest := ih false (show characters + (toLowercase c).length < 80 by omega)
      rw [List.length_append]
      omega
    · simp only [length_nil]
      omega
    · exact ih true h
    · simp only [List.length_singleton]
      omega
    · have hrest := ih true (show characters + 1 < 80 by omega)
      rw [length_cons]
      omega

theorem slug_ne_nil : slug env toLowercase title ≠ [] := by
  rw [slug]
  split_ifs with h
  · decide
  · exact h

section

variable (henv : env.FollowsUnicode toLowercase)
include henv

theorem length_slug_le :
    (slug env toLowercase title).length ≤ 82 := by
  have hlength : (slugChars env toLowercase (trim title).toList true 0).length + 0 ≤ 82 :=
    length_slugChars_le henv.lowercase _ true (by omega)
  rw [slug]
  split_ifs with h
  · decide
  · have hdrop := ( rdropWhile_prefix (p := (· = '-'))
      (l := slugChars env toLowercase (trim title).toList true 0)).length_le
    omega

theorem isAlphanumeric_of_mem_note {l : Char}
    (h : l ∈ "note".toList) : env.isAlphanumeric l = true := by
  have hascii : ∀ l ∈ "note".toList, l.toNat < 128 ∧ l.isAlphanum = true :=
    forall_mem_of_all (by decide)
  rw [henv.ascii l (hascii l h).1]
  exact (hascii l h).2

theorem forall_slug_iff :
    (∀ l ∈ slug env toLowercase title, env.isAlphanumeric l = true ∨ l = '-') ↔
      LowersToNames env toLowercase title := by
  rw [LowersToNames, ← forall_slugChars_iff, slug]
  set chars := slugChars env toLowercase (trim title).toList true 0
  split_ifs with h
  · refine iff_of_true (fun l hl => .inl (isAlphanumeric_of_mem_note henv hl)) fun l hl => .inr ?_
    simpa using rdropWhile_eq_nil_iff.1 h l hl
  · have hsplit := rdropWhile_append_rtakeWhile (p := (· = '-')) (l := chars)
    have hdashes : ∀ l ∈ chars.rtakeWhile (· = '-'), l = '-' := fun l hl => by
      simpa using mem_rtakeWhile_imp hl
    conv_rhs => rw [← hsplit, forall_mem_append]
    exact (and_iff_left fun l hl => .inr (hdashes l hl)).symm

end

/-! ## The file name -/

theorem idDigits_eq (id : Uuid) :
    idDigits id = (List.range 8).map fun i => (id.toNat / 16 ^ (31 - i) % 16).digitChar := by
  rw [idDigits, Uuid.toText]
  simp only [String.toList_intercalate, map_cons, map_nil, String.toList_ofList,
    List.intercalate, List.intersperse, flatten_cons, drop_zero]
  rw [take_append_of_le_length (by simp), take_take, ← map_take, take_range]
  rfl

theorem length_idDigits (id : Uuid) : (idDigits id).length = 8 := by
  rw [idDigits_eq, List.length_map, length_range]

theorem exists_digit_of_mem_idDigits {c : Char} (h : c ∈ idDigits id) :
    ∃ d < 16, c = d.digitChar := by
  rw [idDigits_eq] at h
  obtain ⟨i, -, rfl⟩ := List.mem_map.1 h
  exact ⟨_, Nat.mod_lt _ (by omega), rfl⟩

theorem digitChar_facts {d : ℕ} (h : d < 16) :
    d.digitChar ≠ '-' ∧ d.digitChar ≠ '/' ∧ d.digitChar ≠ 'm' ∧
      (encodeText [d.digitChar]).length = 1 ∧ (encodeText [d.digitChar]).all isAsciiHex = true := by
  decide +revert

theorem notMem_idDigits {c : Char} (h : c = '-' ∨ c = '/' ∨ c = 'm') : c ∉ idDigits id := by
  intro hmem
  obtain ⟨d, hd, rfl⟩ := exists_digit_of_mem_idDigits hmem
  obtain ⟨hdash, hslash, hm, -⟩ := digitChar_facts hd
  obtain h | h | h := h
  · exact hdash h
  · exact hslash h
  · exact hm h

theorem encodeText_digits {digits : List Char} (h : ∀ c ∈ digits, ∃ d < 16, c = d.digitChar) :
    (encodeText digits).length = digits.length ∧ (encodeText digits).all isAsciiHex = true := by
  induction digits with
  | nil => exact ⟨rfl, rfl⟩
  | cons c digits ih =>
    obtain ⟨d, hd, rfl⟩ := h c mem_cons_self
    obtain ⟨-, -, -, hlength, hhex⟩ := digitChar_facts hd
    obtain ⟨hlengths, hhexes⟩ := ih fun c hc => h c (mem_cons_of_mem _ hc)
    rw [← singleton_append, encodeText_append, List.length_append, List.length_append,
      all_append, hlength, hlengths, hhex, hhexes]
    exact ⟨rfl, rfl⟩

theorem rsplitDashes_append {suffix : List Char} (slug : List Char) (h : '-' ∉ suffix) :
    rsplitDashes (suffix ++ '-' :: '-' :: slug) = some (slug, suffix) := by
  induction suffix with
  | nil => rfl
  | cons c suffix ih =>
    rw [mem_cons, not_or] at h
    rw [cons_append, rsplitDashes, ih h.2]
    · rfl
    · rintro rest rfl -
      exact h.1 rfl

def stemOf (slug : List Char) (id : Uuid) : List Char := slug ++ "--".toList ++ idDigits id

theorem reverse_stemOf (slug : List Char) (id : Uuid) :
    (stemOf slug id).reverse = (idDigits id).reverse ++ '-' :: '-' :: slug.reverse := by
  rw [stemOf, reverse_append, reverse_append]
  rfl

theorem length_stemOf (slug : List Char) (id : Uuid) :
    (stemOf slug id).length = slug.length + 10 := by
  rw [stemOf, List.length_append, List.length_append, length_idDigits]
  rfl

theorem validNoteFileName_stemOf (huuid : env.ParsesUuids) (slug : List Char) (id : Uuid) :
    validNoteFileName env (stemOf slug id) = true ↔
      slug ≠ [] ∧ slug.length ≤ 86 ∧ ∀ l ∈ slug, env.isAlphanumeric l = true ∨ l = '-' := by
  have hparse : ¬env.isUuid (stemOf slug id) = true := fun h => by
    refine huuid _ h ⟨slug, idDigits id, ?_⟩
    rfl
  have hsplit : rsplitDashes (stemOf slug id).reverse =
      some (slug.reverse, (idDigits id).reverse) := by
    rw [reverse_stemOf, rsplitDashes_append]
    rw [mem_reverse]
    exact notMem_idDigits (.inl rfl)
  have hdigits : ∀ c ∈ (idDigits id).reverse, ∃ d < 16, c = d.digitChar := fun c hc =>
    exists_digit_of_mem_idDigits (mem_reverse.1 hc)
  obtain ⟨hlength, hhex⟩ := encodeText_digits hdigits
  rw [length_reverse, length_idDigits] at hlength
  rw [validNoteFileName, if_neg hparse]
  simp only [hsplit, hlength, hhex, length_stemOf, Bool.and_eq_true, decide_eq_true_eq,
    List.all_eq_true, Bool.or_eq_true, ne_eq, reverse_eq_nil_iff, mem_reverse, and_true,
    and_assoc]
  refine and_congr_right fun _ => and_congr_left fun _ => ?_
  omega

theorem trimEndMatches_stemOf (slug : List Char) (id : Uuid) :
    trimEndMatches (mdSuffix.reverse ++ (stemOf slug id).reverse) = (stemOf slug id).reverse := by
  have hm : 'm' ∉ (idDigits id).reverse := fun h =>
    notMem_idDigits (.inr (.inr rfl)) (mem_reverse.1 h)
  have hlength : (idDigits id).reverse.length = 8 := by rw [length_reverse, length_idDigits]
  rw [reverse_stemOf]
  generalize (idDigits id).reverse = digits at hm hlength
  obtain ⟨a, b, digits, rfl⟩ : ∃ a b rest, digits = a :: b :: rest := by
    obtain _ | ⟨a, _ | ⟨b, rest⟩⟩ := digits
    · cases hlength
    · cases hlength
    · exact ⟨a, b, rest, rfl⟩
  show trimEndMatches (a :: b :: (digits ++ '-' :: '-' :: slug.reverse)) = _
  rw [trimEndMatches]
  · rfl
  · intro rest heq
    have hb : b = 'm' := (cons.inj (cons.inj heq).2).1
    exact hm (hb ▸ mem_cons_of_mem _ mem_cons_self)

theorem slash_notMem_of_valid (h : validNotePathPrefix directory = true) : '/' ∉ directory := by
  intro hmem
  have hbyte : (0x2f : UInt8) ∈ encodeText directory := mem_flatMap.2 ⟨'/', hmem, by decide⟩
  unfold validNotePathPrefix at h
  rw [Bool.and_eq_true, List.all_eq_true] at h
  exact absurd (h.2 _ hbyte) (by decide)

theorem validate_stemOf (hdirectory : validNotePathPrefix directory = true) (slug : List Char)
    (id : Uuid) :
    validateNoteRelativePath env (directory ++ '/' :: (stemOf slug id ++ mdSuffix)) = .ok () ↔
      '/' ∉ slug ∧ validNoteFileName env (stemOf slug id) = true := by
  have hsegments : segments (directory ++ '/' :: (stemOf slug id ++ mdSuffix)) =
      directory :: segments (stemOf slug id ++ mdSuffix) :=
    splitOn_append_cons_self_of_not_mem (slash_notMem_of_valid hdirectory) _
  have htrim : (trimEndMatches (stemOf slug id ++ mdSuffix).reverse).reverse = stemOf slug id := by
    rw [reverse_append, trimEndMatches_stemOf, reverse_reverse]
  have hsuffix : mdSuffix.isSuffixOf (stemOf slug id ++ mdSuffix) = true :=
    isSuffixOf_iff_suffix.2 (suffix_append _ _)
  have hslash : '/' ∉ stemOf slug id ++ mdSuffix ↔ '/' ∉ slug := by
    have hdigits : '/' ∉ idDigits id := notMem_idDigits (.inr (.inl rfl))
    simp [stemOf, hdigits, mdSuffix]
  rw [validateNoteRelativePath, hsegments]
  by_cases h : '/' ∈ slug
  · have hmem := not_not.1 (mt hslash.1 (not_not.2 h))
    refine iff_of_false ?_ fun hne => hne.1 h
    obtain ⟨front, back, heq, hfront⟩ := eq_append_cons_of_mem hmem
    have hmore : segments (stemOf slug id ++ mdSuffix) = front :: segments back := by
      rw [heq]
      exact splitOn_append_cons_self_of_not_mem hfront _
    rw [hmore]
    cases hback : segments back with
    | nil => exact absurd hback (splitOn_ne_nil _ _)
    | cons segment rest => simp
  · have hone : segments (stemOf slug id ++ mdSuffix) = [stemOf slug id ++ mdSuffix] :=
      splitOn_eq_singleton (hslash.2 h)
    simp only [hone, hdirectory, hsuffix, htrim, Bool.true_and, h, not_false_eq_true, true_and]
    split_ifs with hvalid
    · exact iff_of_true rfl hvalid
    · exact iff_of_false (by simp) hvalid

theorem domainNoteRelativePath_eq (hdirectory : validNotePathPrefix directory = true) :
    domainNoteRelativePath env toLowercase directory title id =
      .ok (directory ++ '/' :: (stemOf (slug env toLowercase title) id ++ mdSuffix)) := by
  rw [domainNoteRelativePath, if_pos hdirectory]
  rfl

/-- The vault accepts the path that is made from a title exactly when the title's letters have
lower-case forms that it accepts. -/
theorem validate_domainNoteRelativePath_iff (env : VaultEnv) (toLowercase : Char → List Char)
    (huuid : env.ParsesUuids) (henv : env.FollowsUnicode toLowercase) (directory : List Char)
    (title : String) (id : Uuid) (hdirectory : validNotePathPrefix directory = true) :
    ∃ path, domainNoteRelativePath env toLowercase directory title id = .ok path ∧
      (validateNoteRelativePath env path = .ok () ↔ LowersToNames env toLowercase title) := by
  refine ⟨_, domainNoteRelativePath_eq hdirectory, ?_⟩
  rw [validate_stemOf hdirectory, validNoteFileName_stemOf huuid, ← forall_slug_iff henv]
  have hlength : (slug env toLowercase title).length ≤ 82 := length_slug_le henv
  constructor
  · rintro ⟨-, -, -, hslug⟩
    exact hslug
  · intro hslug
    refine ⟨fun hslash => ?_, slug_ne_nil, by omega, hslug⟩
    obtain h | h := hslug '/' hslash
    · rw [henv.ascii '/' (by decide)] at h
      exact absurd h (by decide)
    · exact absurd h (by decide)

/-! ## The registry -/

theorem between_append (start middle stop : List Char) :
    Jobs.between start stop (start ++ (middle ++ stop)) = some middle := by
  have hstart : start.isPrefixOf (start ++ (middle ++ stop)) = true :=
    isPrefixOf_iff_prefix.2 (prefix_append _ _)
  have hstop : stop.isSuffixOf (middle ++ stop) = true :=
    isSuffixOf_iff_suffix.2 (suffix_append _ _)
  have hlength : (start ++ (middle ++ stop)).length - start.length - stop.length =
      middle.length := by
    rw [List.length_append, List.length_append]
    omega
  rw [Jobs.between, drop_left, hstart, hstop, hlength, take_left]
  rfl

theorem prefix_of_between {start stop text middle : List Char}
    (h : Jobs.between start stop text = some middle) : start <+: text := by
  rw [Jobs.between] at h
  split_ifs at h with hcond
  exact isPrefixOf_iff_prefix.1 (Bool.and_eq_true_iff.1 hcond).1

theorem eq_of_append_slash {a b rest rest' : List Char} (ha : '/' ∉ a) (hb : '/' ∉ b)
    (h : a ++ '/' :: rest = b ++ '/' :: rest') : a = b := by
  have hsegments := congrArg segments h
  rw [segments, segments, splitOn_append_cons_self_of_not_mem ha,
    splitOn_append_cons_self_of_not_mem hb] at hsegments
  exact (cons.inj hsegments).1

theorem eq_notes_of_isMaterialized {rest : List Char} (hslash : '/' ∉ directory)
    (h : Jobs.isMaterializedNotePath env.isAlphanumeric
      (String.ofList (directory ++ '/' :: rest)) id = true) : directory = "notes".toList := by
  have hnotes : '/' ∉ "notes".toList := by decide
  rw [Jobs.isMaterializedNotePath, Bool.or_eq_true, decide_eq_true_eq] at h
  obtain heq | hbetween := h
  · have hlist := congrArg String.toList heq
    rw [String.toList_ofList, String.toList_append, String.toList_append] at hlist
    exact eq_of_append_slash hslash hnotes hlist
  · obtain ⟨fileName, hfile, -⟩ := (Option.any_eq_true _ _).1 hbetween
    have htext : (String.ofList (directory ++ '/' :: rest)).toList = directory ++ '/' :: rest :=
      String.toList_ofList
    rw [htext] at hfile
    obtain ⟨tail, htail⟩ := prefix_of_between hfile
    exact eq_of_append_slash hslash hnotes htail.symm

theorem isMaterialized_stemOf (slug : List Char) (hne : slug ≠ []) (hslash : '/' ∉ slug)
    (hlength : slug.length ≤ 86) (hslug : ∀ l ∈ slug, env.isAlphanumeric l = true ∨ l = '-') :
    Jobs.isMaterializedNotePath env.isAlphanumeric
      (String.ofList ("notes".toList ++ '/' :: (stemOf slug id ++ mdSuffix))) id = true := by
  have hfile : Jobs.between "notes/".toList ".md".toList
      ("notes".toList ++ '/' :: (stemOf slug id ++ mdSuffix)) = some (stemOf slug id) :=
    between_append "notes/".toList (stemOf slug id) ".md".toList
  have hstem : Jobs.between [] ("--".toList ++ (Uuid.toText id).toList.take 8) (stemOf slug id) =
      some slug := by
    have hbetween := between_append [] slug ("--".toList ++ idDigits id)
    rw [nil_append, ← List.append_assoc] at hbetween
    exact hbetween
  have hnotNil : stemOf slug id ≠ [] := fun h => by
    have hlen := congrArg List.length h
    rw [length_stemOf, length_nil] at hlen
    omega
  have hstemSlash : '/' ∉ stemOf slug id := by
    have hdigits : '/' ∉ idDigits id := notMem_idDigits (.inr (.inl rfl))
    simp [stemOf, hslash, hdigits]
  have hlen : (stemOf slug id).length ≤ 96 := by
    rw [length_stemOf]
    omega
  have htext : (String.ofList ("notes".toList ++ '/' :: (stemOf slug id ++ mdSuffix))).toList =
      "notes".toList ++ '/' :: (stemOf slug id ++ mdSuffix) := String.toList_ofList
  rw [Jobs.isMaterializedNotePath, htext, hfile, Option.any_some, hstem,
    Option.any_some, Bool.or_eq_true]
  right
  simp only [Bool.and_eq_true, decide_eq_true_eq, List.all_eq_true, Bool.or_eq_true]
  exact ⟨⟨⟨hnotNil, hstemSlash⟩, hlen⟩, hne, hslug⟩

/-- The registry accepts a path that the vault accepts exactly when it is below `notes`. -/
theorem isMaterialized_domainNoteRelativePath_iff (env : VaultEnv)
    (toLowercase : Char → List Char) (huuid : env.ParsesUuids) (directory : List Char)
    (title : String) (id : Uuid) (path : List Char)
    (hpath : domainNoteRelativePath env toLowercase directory title id = .ok path)
    (hvalid : validateNoteRelativePath env path = .ok ()) :
    Jobs.isMaterializedNotePath env.isAlphanumeric (String.ofList path) id = true ↔
      directory = "notes".toList := by
  have hdirectory : validNotePathPrefix directory = true := by
    rw [domainNoteRelativePath] at hpath
    split_ifs at hpath with h
    exact h
  rw [domainNoteRelativePath_eq hdirectory] at hpath
  cases hpath
  constructor
  · exact eq_notes_of_isMaterialized (slash_notMem_of_valid hdirectory)
  · rintro rfl
    obtain ⟨hslash, hfile⟩ := (validate_stemOf hdirectory _ id).1 hvalid
    obtain ⟨hne, hlength, hslug⟩ := (validNoteFileName_stemOf huuid _ id).1 hfile
    exact isMaterialized_stemOf _ hne hslash hlength hslug

end

/-! ## A dotted capital, and an incident -/

/-- ASCII, the capital I with a dot and its lower-case form, whose second character is a combining
mark. -/
def sampleNoteEnv : VaultEnv where
  isUuid _ := false
  isAlphanumeric c := c.isAlphanum || c == '\u0130'
  contentHash _ := ""

def sampleLowercase (c : Char) : List Char :=
  if c = '\u0130' then ['i', '\u0307'] else [c.toLower]

theorem sampleNoteEnv_parsesUuids : sampleNoteEnv.ParsesUuids := fun _ h => by cases h

theorem sampleNoteEnv_followsUnicode : sampleNoteEnv.FollowsUnicode sampleLowercase where
  ascii c hc := by
    have hne : (c == '\u0130') = false := beq_eq_false_iff_ne.2 fun h => by
      rw [h] at hc
      exact absurd hc (by decide)
    show (c.isAlphanum || c == '\u0130') = c.isAlphanum
    rw [hne, Bool.or_false]
  lowercase c := by
    rw [sampleLowercase]
    split_ifs
    · decide
    · exact Nat.le_of_ble_eq_true rfl

theorem dottedCapital_refused :
    sampleNoteEnv.FollowsUnicode sampleLowercase ∧ validNotePathPrefix "notes".toList = true ∧
      ∃ path, domainNoteRelativePath sampleNoteEnv sampleLowercase "notes".toList "\u0130" 0 =
          .ok path ∧ validateNoteRelativePath sampleNoteEnv path = .error (.invalidNotePath path) :=
  ⟨sampleNoteEnv_followsUnicode, by decide +kernel, _, rfl, by decide +kernel⟩

theorem validate_samplePath :
    ∃ path, domainNoteRelativePath sampleNoteEnv sampleLowercase "notes".toList "Disk full" 0 =
        .ok path ∧ (validateNoteRelativePath sampleNoteEnv path = .ok () ↔
        LowersToNames sampleNoteEnv sampleLowercase "Disk full") :=
  validate_domainNoteRelativePath_iff sampleNoteEnv sampleLowercase sampleNoteEnv_parsesUuids
    sampleNoteEnv_followsUnicode "notes".toList "Disk full" 0 (by decide +kernel)

theorem incident_not_registered :
    ∃ path, domainNoteRelativePath sampleNoteEnv sampleLowercase "incidents".toList "Disk" 0 =
        .ok path ∧ validateNoteRelativePath sampleNoteEnv path = .ok () ∧
      Jobs.isMaterializedNotePath sampleNoteEnv.isAlphanumeric (String.ofList path) 0 = false :=
  ⟨_, rfl, by decide +kernel, by decide +kernel⟩

theorem note_registered : Jobs.isMaterializedNotePath sampleNoteEnv.isAlphanumeric
        (String.ofList "notes/disk--00000000.md".toList) 0 = true ↔
      "notes".toList = "notes".toList :=
  isMaterialized_domainNoteRelativePath_iff sampleNoteEnv sampleLowercase
    sampleNoteEnv_parsesUuids "notes".toList "Disk" 0 "notes/disk--00000000.md".toList
    (by decide +kernel) (by decide +kernel)

end Gadgetron.Knowledge
