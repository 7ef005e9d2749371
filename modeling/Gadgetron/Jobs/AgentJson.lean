import Gadgetron.Jobs.Execution
import Gadgetron.Lib.Boundary
import Gadgetron.Lib.Lines
import Gadgetron.Policy.JsonText

/-!
# The JSON object in an agent's output

`parse_agent_json` takes the whole text, then the last fence, then the longest object that starts
at some brace.  The parser of `serde_json` is a parameter.
-/

namespace Gadgetron.Jobs

open Lib Policy Worker List Option

/-- `StreamDeserializer`: the value that a text starts with and the text up to `byte_offset`. -/
structure Deserializer where
  next : List Char → Option (Json × List Char)
  consumed : ∀ {text value taken}, next text = some (value, taken) → taken <+: text
  opens : ∀ {text fields taken}, next text = some (.object fields, taken) →
    ∃ c, text.head? = some c ∧ (isWhitespace c ∨ c = '\x7b')
  closes : ∀ {text fields taken}, next text = some (.object fields, taken) →
    taken.getLast? = some '\x7d'
  /-- What follows an object plays no part in reading it. -/
  stable : ∀ {text fields taken}, next text = some (.object fields, taken) →
    ∀ rest, next (taken ++ rest) = some (.object fields, taken)

/-- The value is read back from its text, whatever follows. -/
def Deserializer.Reads (serde : Deserializer) (value : Json) : Prop :=
  ∀ rest, serde.next (value.compact ++ rest) = some (value, value.compact)

def isJsonSpace (c : Char) : Bool := [' ', '\n', '\t', '\r'].contains c

/-- `serde_json::from_str`, where the value is an object. -/
def Deserializer.object (serde : Deserializer) (text : List Char) : Option Json :=
  match serde.next text with
  | some (.object fields, taken) =>
    if (text.drop taken.length).all isJsonSpace then some (.object fields) else none
  | _ => none

def trimmed (text : List Char) : List Char := (trim (String.ofList text)).toList

def fence : List Char := ['\x60', '\x60', '\x60']

def inFence (text : List Char) : List Char :=
  fence ++ ("json\n".toList ++ (text ++ '\n' :: fence))

def isJson (language : List Char) : Bool :=
  (trimmed language).isEmpty || (trimmed language).map Char.toLower == ['j', 's', 'o', 'n']

/-- `last_fenced_json_object` from a cursor on. -/
def lastFenced (serde : Deserializer) (last : Option Json) (text : List Char) : Option Json :=
  match _h : splitAtFirst fence text with
  | none => last
  | some (_, opened) =>
    match _h' : splitAtFirst ['\n'] opened with
    | none => last
    | some (language, body) =>
      match _h'' : splitAtFirst fence body with
      | none => last
      | some (inner, rest) =>
        lastFenced serde
          (if isJson language then (serde.object (trimmed inner)).or last else last) rest
termination_by text.length
decreasing_by
  have hopened := congrArg List.length (eq_of_splitAtFirst _h)
  have hbody := congrArg List.length (eq_of_splitAtFirst _h')
  have hrest := congrArg List.length (eq_of_splitAtFirst _h'')
  simp only [List.length_append, fence, length_cons, length_nil] at hopened hbody hrest
  omega

/-- `text.match_indices('\x7b')`, with the text from each place on. -/
def openings (start : ℕ) : List Char → List (ℕ × List Char)
  | [] => []
  | c :: rest =>
    if c = '\x7b' then (start, c :: rest) :: openings (start + charBytes c) rest
    else openings (start + charBytes c) rest

/-- The longest object so far: its length, where it starts and its value. -/
abbrev Found := Option (ℕ × ℕ × Json)

def replaces (best : Found) (taken start : ℕ) : Bool :=
  best.all fun found => taken > found.1 || (taken = found.1 && start > found.2.1)

def tryOpening (serde : Deserializer) (best : Found) (opening : ℕ × List Char) : Found :=
  match serde.next opening.2 with
  | some (.object fields, taken) =>
    if replaces best (byteLength taken) opening.1 then
      some (byteLength taken, opening.1, .object fields)
    else best
  | _ => best

def permanent (detail : String) : AgentExecutionError where
  detail := detail
  retryable := false
  alreadyTerminal := false

def parseAgentJson (serde : Deserializer) (text : List Char) : Except AgentExecutionError Json :=
  match serde.object (trimmed text) with
  | some value => .ok value
  | none =>
    match lastFenced serde none text with
    | some value => .ok value
    | none =>
      match (openings 0 text).foldl (tryOpening serde) none with
      | some (_, _, value) => .ok value
      | none => .error (permanent "agent output did not contain a valid JSON object")

/-! ## Serialized objects -/

theorem newline_not_mem_escapeChar (c : Char) : '\n' ∉ Json.escapeChar c := by
  by_cases hc : c = '\n'
  · subst hc
    decide
  unfold Json.escapeChar
  split_ifs
  all_goals simp [Ne.symm hc]

theorem newline_not_mem_quoted (text : String) : '\n' ∉ Json.quoted text := by
  simp [Json.quoted, newline_not_mem_escapeChar]

theorem newline_not_mem_compactValues {values : List Json}
    (h : ∀ value ∈ values, '\n' ∉ value.compact) (first : Bool) :
    '\n' ∉ Json.compactValues first values := by
  induction values generalizing first with
  | nil => simp [Json.compactValues]
  | cons value values ih =>
    have htail := ih (fun v hv => h v (mem_cons_of_mem _ hv)) false
    cases first <;> simp [Json.compactValues, Json.separator, h value mem_cons_self, htail]

theorem newline_not_mem_compactFields {fields : List (String × Json)}
    (h : ∀ field ∈ fields, '\n' ∉ field.2.compact) (first : Bool) :
    '\n' ∉ Json.compactFields first fields := by
  induction fields generalizing first with
  | nil => simp [Json.compactFields]
  | cons field fields ih =>
    have htail := ih (fun f hf => h f (mem_cons_of_mem _ hf)) false
    cases first <;> simp [Json.compactFields, Json.separator, newline_not_mem_quoted,
      h field mem_cons_self, htail]

theorem newline_not_mem_compact {value : Json} (h : value.WellFormed) : '\n' ∉ value.compact := by
  induction h with
  | null => simp [Json.compact]
  | bool value => cases value <;> simp [Json.compact]
  | number text _ chars => exact fun hmem => absurd (chars _ hmem) (by decide)
  | string value => exact newline_not_mem_quoted value
  | array values _ ih =>
    simpa [Json.compact] using newline_not_mem_compactValues ih true
  | object fields _ _ ih =>
    simpa [Json.compact] using newline_not_mem_compactFields ih true

theorem getLast?_compactFields (fields : List (String × Json)) (first : Bool) :
    (Json.compactFields first fields).getLast? = some '\x7d' := by
  induction fields generalizing first with
  | nil => rfl
  | cons field fields ih =>
    rw [Json.compactFields, List.append_assoc, cons_append, getLast?_append,
      ← cons_append, getLast?_append, ih]
    rfl

variable {fields : List (String × Json)}

theorem getLast?_compact : (Json.object fields).compact.getLast? = some '\x7d' := by
  rw [Json.compact, ← singleton_append, getLast?_append, getLast?_compactFields]
  rfl

theorem compact_eq_cons : (Json.object fields).compact = '\x7b' :: Json.compactFields true fields :=
  rfl

/-! ## Trimming -/

variable {before text after : List Char}

theorem dropWhile_of_head? {p : Char → Bool} (h : ∀ c ∈ text.head?, p c = false) :
    text.dropWhile p = text := by
  cases text with
  | nil => rfl
  | cons c text => rw [dropWhile_cons_of_neg (by simp [h c rfl])]

theorem trimmed_eq (text : List Char) :
    trimmed text = (text.dropWhile isWhitespace).rdropWhile isWhitespace := by
  unfold trimmed trim
  rw [String.toList_ofList, String.toList_ofList]
  rfl

section

variable (hbefore : ∀ c ∈ before, isWhitespace c) (hafter : ∀ c ∈ after, isWhitespace c)
include hbefore hafter

theorem trimmed_append (hne : text ≠ [])
    (hfirst : ∀ c ∈ text.head?, isWhitespace c = false)
    (hlast : ∀ c ∈ text.getLast?, isWhitespace c = false) :
    trimmed (before ++ text ++ after) = text := by
  have hhead : ∀ c ∈ (text ++ after).head?, isWhitespace c = false := by
    obtain ⟨c, l, rfl⟩ := exists_cons_of_ne_nil hne
    exact hfirst
  rw [trimmed_eq, List.append_assoc, dropWhile_append_of_pos hbefore, dropWhile_of_head? hhead]
  unfold List.rdropWhile
  rw [reverse_append, dropWhile_append_of_pos fun c hc =>
    hafter c (mem_reverse.1 hc), dropWhile_of_head?, reverse_reverse]
  rw [head?_reverse]
  exact hlast

theorem trimmed_compact :
    trimmed (before ++ (Json.object fields).compact ++ after) = (Json.object fields).compact := by
  refine trimmed_append hbefore hafter (cons_ne_nil _ _) ?_ ?_
  · rintro c ⟨⟩
    decide
  · rw [getLast?_compact]
    rintro c ⟨⟩
    decide

end

theorem object_trimmed_eq_none {serde : Deserializer}
    (h : ∀ c ∈ (text.dropWhile isWhitespace).head?, c ≠ '\x7b') :
    serde.object (trimmed text) = none := by
  unfold Deserializer.object
  split
  next fields taken hnext =>
    obtain ⟨c, hc, hkind⟩ := serde.opens hnext
    rw [trimmed_eq] at hc
    obtain ⟨rest, hrest⟩ := rdropWhile_prefix isWhitespace (l := text.dropWhile isWhitespace)
    have hhead : (text.dropWhile isWhitespace).head? = some c := by
      rw [← hrest, head?_append, hc]
      rfl
    have hspace := head?_dropWhile_not isWhitespace text
    rw [hhead] at hspace
    rcases hkind with hkind | rfl
    · exact absurd hkind (by simpa using hspace)
    · exact absurd rfl (h _ hhead)
  next => rfl

theorem isJson_eq_false (h : text.getLast? = some '\x7d') : isJson text = false := by
  obtain ⟨start, rfl⟩ := getLast?_eq_some_iff.1 h
  have hdrop : ∃ start', (start ++ ['\x7d']).dropWhile isWhitespace = start' ++ ['\x7d'] := by
    rw [dropWhile_append]
    split_ifs
    · exact ⟨[], by decide⟩
    · exact ⟨_, rfl⟩
  obtain ⟨start', hstart'⟩ := hdrop
  have hmem : '\x7d' ∈ trimmed (start ++ ['\x7d']) := by
    rw [trimmed_eq, hstart', rdropWhile_concat_neg _ _ _ (by decide)]
    simp
  have hjson : (trimmed (start ++ ['\x7d'])).map Char.toLower ≠ ['j', 's', 'o', 'n'] := by
    intro heq
    have hlower := List.mem_map_of_mem (f := Char.toLower) hmem
    rw [heq] at hlower
    exact absurd hlower (by decide)
  simp [isJson, ne_nil_of_mem hmem, hjson]

/-! ## Fences -/

variable {c : Char} {mark : List Char}

theorem splitAtFirst_of_not_mem (h : c ∉ before) (after : List Char) :
    splitAtFirst (c :: mark) (before ++ (c :: mark) ++ after) = some (before, after) := by
  refine splitAtFirst_eq_some (cons_ne_nil _ _) fun s t hbefore ht hprefix => ?_
  obtain ⟨d, t, rfl⟩ := exists_cons_of_ne_nil ht
  obtain ⟨rfl, -⟩ := cons_prefix_cons.1 hprefix
  exact h (hbefore ▸ by simp)

theorem lastFenced_cases (serde : Deserializer) (last : Option Json) (text : List Char) :
    lastFenced serde last text = last ∨ ∃ before opened language body inner rest,
      splitAtFirst fence text = some (before, opened) ∧
      splitAtFirst ['\n'] opened = some (language, body) ∧
      splitAtFirst fence body = some (inner, rest) ∧ lastFenced serde last text = lastFenced serde
        (if isJson language then (serde.object (trimmed inner)).or last else last) rest := by
  generalize hresult : lastFenced serde last text = result
  rw [lastFenced] at hresult
  split at hresult
  next => exact .inl hresult.symm
  next before opened hopened =>
    split at hresult
    next => exact .inl hresult.symm
    next language body hbody =>
      split at hresult
      next => exact .inl hresult.symm
      next inner rest hinner =>
        exact .inr ⟨_, _, _, _, _, _, hopened, hbody, hinner, hresult.symm⟩

theorem eq_of_fence (hbefore : '\x60' ∉ before) {start : List Char}
    (h : before ++ text = start ++ (fence ++ after)) : ∃ inner, text = inner ++
    (fence ++ after) := by
  rcases append_eq_append_iff.1 h with ⟨inner, -, hinner⟩ | ⟨cut, hcut, hrest⟩
  · exact ⟨inner, hinner⟩
  · cases cut with
    | nil => exact ⟨[], hrest.symm⟩
    | cons d cut =>
      obtain ⟨rfl, -⟩ := cons.inj hrest
      exact absurd (hcut ▸ by simp) hbefore

theorem lastFenced_of_newline (serde : Deserializer) (last : Option Json)
    (hbefore : '\x60' ∉ before) (htext : '\n' ∉ text) :
    lastFenced serde last (before ++ text) = last := by
  rcases lastFenced_cases serde last (before ++ text) with h | ⟨_, opened, _, _, _, _, hopened,
    hbody, -⟩
  · exact h
  have hcut := eq_of_splitAtFirst hopened
  rw [List.append_assoc] at hcut
  obtain ⟨inner, rfl⟩ := eq_of_fence hbefore hcut
  have hline := eq_of_splitAtFirst hbody
  exact absurd (by simp [hline]) htext

theorem splitAtFirst_closing {inner rest : List Char} (hnewline : '\n' ∉ text)
    (h : splitAtFirst fence (text ++ '\n' :: fence) = some (inner, rest)) :
    (∃ tail, text = inner ++ (fence ++ tail) ∧ rest = tail ++ '\n' :: fence) ∨
      inner = text ++ ['\n'] ∧ rest = [] := by
  have heq := eq_of_splitAtFirst h
  by_cases hinner : '\n' ∈ inner
  · obtain ⟨start, more, rfl, hstart⟩ := eq_append_cons_of_mem hinner
    simp only [List.append_assoc, cons_append] at heq
    obtain ⟨rfl, hfence⟩ := append_separator_inj hnewline hstart heq
    have hlength := congrArg List.length hfence
    simp only [List.length_append] at hlength
    have hmore : more = [] := eq_nil_of_length_eq_zero (by omega)
    have hrest : rest = [] := eq_nil_of_length_eq_zero (by omega)
    exact .inr ⟨by rw [hmore], hrest⟩
  · have hfence : '\n' ∉ inner ++ fence := by simp [hinner, fence]
    have hrest : '\n' ∈ rest := by
      have hmem : '\n' ∈ inner ++ fence ++ rest := heq ▸ by simp
      exact (mem_append.1 hmem).resolve_left hfence
    obtain ⟨tail, after, rfl, htail⟩ := eq_append_cons_of_mem hrest
    rw [← List.append_assoc] at heq
    obtain ⟨rfl, rfl⟩ := append_separator_inj hnewline (by simp_all) heq
    exact .inl ⟨tail, List.append_assoc .., rfl⟩

theorem lastFenced_tail (serde : Deserializer) (last : Option Json) (hnewline : '\n' ∉ text)
    (hlast : text.getLast? = some '\x7d') :
    lastFenced serde last (text ++ '\n' :: fence) = last := by
  rcases lastFenced_cases serde last (text ++ '\n' :: fence) with h | ⟨_, opened, language, body,
    inner, rest, hopened, hbody, hinner, h⟩
  · exact h
  rcases splitAtFirst_closing hnewline hopened with ⟨tail, rfl, rfl⟩ | ⟨-, rfl⟩
  · have hline := @splitAtFirst_of_not_mem tail '\n' [] (by simp_all) fence
    rw [List.append_assoc, singleton_append, hbody] at hline
    obtain ⟨rfl, rfl⟩ := Prod.mk.inj (some.inj hline)
    obtain ⟨rfl, rfl⟩ : inner = [] ∧ rest = [] := by
      have hself : splitAtFirst fence fence = some ([], []) := by decide
      rw [hself] at hinner
      exact ⟨(congrArg Prod.fst (some.inj hinner)).symm, (congrArg Prod.snd (some.inj hinner)).symm⟩
    have hlanguage : language.getLast? = some '\x7d' := by
      cases language with
      | nil => simp [fence] at hlast
      | cons d language => simpa [getLast?_append] using hlast
    rw [h, isJson_eq_false hlanguage]
    exact @lastFenced_of_newline [] _ serde last (by simp) (by simp)
  · cases hbody

variable {serde : Deserializer}

theorem object_trimmed_part (hreads : serde.Reads (.object fields)) {part tail : List Char}
    (hcompact : (Json.object fields).compact = part ++ tail) (htail : tail ≠ []) :
    serde.object (trimmed part) = none := by
  unfold Deserializer.object
  split
  next found taken hnext =>
    have hpart : trimmed part <+: part := by
      rw [trimmed_eq, dropWhile_of_head?]
      · exact rdropWhile_prefix _ _
      · cases part with
        | nil => simp
        | cons d part =>
          obtain ⟨rfl, -⟩ := cons.inj hcompact
          rintro c ⟨⟩
          decide
    obtain ⟨rest, hrest⟩ := (serde.consumed hnext).trans hpart
    have hself := hreads []
    rw [append_nil, hcompact, ← hrest, List.append_assoc, serde.stable hnext,
      some_inj, Prod.mk.injEq, ← List.append_assoc, hrest] at hself
    have hshorter := congrArg List.length hrest
    have hlonger := congrArg List.length hself.2
    rw [List.length_append] at hshorter hlonger
    exact absurd (eq_nil_of_length_eq_zero (by omega)) htail
  next => rfl

theorem lastFenced_fenced (hwell : (Json.object fields).WellFormed)
    (hreads : serde.Reads (.object fields)) (hbefore : '\x60' ∉ before) :
    lastFenced serde none (before ++ inFence (Json.object fields).compact) = none ∨
      lastFenced serde none (before ++ inFence (Json.object fields).compact) =
        some (.object fields) := by
  rcases lastFenced_cases serde none (before ++ inFence (Json.object fields).compact) with
    h | ⟨_, opened, language, body, inner, rest, hopened, hbody, hinner, h⟩
  · exact .inl h
  have hfirst := @splitAtFirst_of_not_mem before '\x60' ['\x60', '\x60'] hbefore
    ("json\n".toList ++ ((Json.object fields).compact ++ '\n' :: fence))
  rw [List.append_assoc] at hfirst
  replace hfirst := hopened.symm.trans hfirst
  obtain ⟨rfl, rfl⟩ := Prod.mk.inj (some.inj hfirst)
  have hline := @splitAtFirst_of_not_mem ['j', 's', 'o', 'n'] '\n' [] (by decide)
    ((Json.object fields).compact ++ '\n' :: fence)
  replace hline := hbody.symm.trans hline
  obtain ⟨rfl, rfl⟩ := Prod.mk.inj (some.inj hline)
  rw [h, if_pos (by decide)]
  rcases splitAtFirst_closing (newline_not_mem_compact hwell) hinner with ⟨tail, htail, rfl⟩ |
    ⟨rfl, rfl⟩
  · left
    have hnewline := newline_not_mem_compact hwell
    have hlast := @getLast?_compact fields
    rw [htail, ← List.append_assoc] at hnewline hlast
    rw [object_trimmed_part hreads htail (by simp [fence]), none_or]
    refine lastFenced_tail serde none (fun hmem => hnewline (mem_append_right _ hmem)) ?_
    cases tail with
    | nil => simp [fence] at hlast
    | cons d tail => simpa [getLast?_append] using hlast
  · right
    have hself := hreads []
    rw [append_nil] at hself
    have htrim := @trimmed_compact fields [] ['\n'] (by simp)
      (forall_mem_singleton.2 (by decide))
    have hobject : serde.object (Json.object fields).compact = some (.object fields) := by
      unfold Deserializer.object
      simp [hself]
    rw [nil_append] at htrim
    rw [htrim, hobject, some_or]
    exact @lastFenced_of_newline [] [] serde _ (by simp) (by simp)

/-! ## The longest object -/

theorem openings_append (h : '\x7b' ∉ before) (start : ℕ) (text : List Char) :
    ∃ start', openings start (before ++ text) = openings start' text := by
  induction before generalizing start with
  | nil => exact ⟨start, rfl⟩
  | cons c before ih =>
    rw [cons_append, openings, if_neg fun hc : c = '\x7b' => h (hc ▸ mem_cons_self)]
    exact ih (fun hmem => h (mem_cons_of_mem _ hmem)) _

theorem suffix_of_mem_openings {start : ℕ} {opening : ℕ × List Char}
    (h : opening ∈ openings start text) : opening.2 <:+ text := by
  induction text generalizing start with
  | nil => cases h
  | cons c text ih =>
    rw [openings] at h
    split_ifs at h
    · rcases mem_cons.1 h with rfl | h
      · exact suffix_rfl
      · exact (ih h).trans (suffix_cons c text)
    · exact (ih h).trans (suffix_cons c text)

theorem foldl_tryOpening {best : Found} {l : List (ℕ × List Char)}
    (h : ∀ opening ∈ l, tryOpening serde best opening = best) :
    l.foldl (tryOpening serde) best = best := by
  induction l with
  | nil => rfl
  | cons opening l ih =>
    rw [foldl_cons, h opening mem_cons_self]
    exact ih fun other hother => h other (mem_cons_of_mem _ hother)

theorem byteLength_taken_lt {skipped taken rest : List Char} (hskipped : skipped ≠ [])
    (htaken : taken.getLast? = some '\x7d') (hafter : '\x7d' ∉ after)
    (h : text ++ after = skipped ++ (taken ++ rest)) : byteLength taken < byteLength text := by
  obtain ⟨c, skipped, rfl⟩ := exists_cons_of_ne_nil hskipped
  have hpos := charBytes_pos c
  rw [← List.append_assoc] at h
  rcases append_eq_append_iff.1 h with ⟨more, hmore, hrest⟩ | ⟨more, hmore, -⟩
  · cases more with
    | nil =>
      rw [append_nil] at hmore
      rw [← hmore, byteLength_append, byteLength_cons]
      omega
    | cons d more =>
      have hlast : (d :: more).getLast? = some '\x7d' := by
        have hends := congrArg List.getLast? hmore
        rw [getLast?_append, getLast?_append, htaken] at hends
        simpa [getLast?_cons] using hends.symm
      exact absurd (hrest ▸ mem_append_left _ (mem_of_getLast? hlast)) hafter
  · rw [hmore, byteLength_append, byteLength_append, byteLength_cons]
    omega

theorem longest_object (hreads : serde.Reads (.object fields)) (hbefore : '\x7b' ∉ before)
    (hafter : '\x7d' ∉ after) :
    ((openings 0 (before ++ ((Json.object fields).compact ++ after))).foldl (tryOpening serde)
      none).map (·.2.2) = some (.object fields) := by
  obtain ⟨start, hstart⟩ := openings_append hbefore 0 ((Json.object fields).compact ++ after)
  have hfirst : tryOpening serde none (start, (Json.object fields).compact ++ after) =
      some (byteLength (Json.object fields).compact, start, .object fields) := by
    simp [tryOpening, hreads after, replaces]
  rw [hstart]
  rw [compact_eq_cons] at hfirst ⊢
  rw [cons_append, openings, if_pos rfl, foldl_cons, ← cons_append, hfirst,
    foldl_tryOpening, map_some]
  intro opening hopening
  unfold tryOpening
  split
  next found taken hnext =>
    obtain ⟨skipped, hskipped⟩ := suffix_of_mem_openings hopening
    obtain ⟨rest, hrest⟩ := serde.consumed hnext
    have hshorter := @byteLength_taken_lt ('\x7b' :: Json.compactFields true fields) after
      ('\x7b' :: skipped) taken rest (cons_ne_nil _ _) (serde.closes hnext) hafter
      (by rw [hrest, cons_append, cons_append, hskipped])
    rw [if_neg]
    simp only [replaces, all_some, Bool.or_eq_true, Bool.and_eq_true, decide_eq_true_eq]
    omega
  next => rfl

/-! ## Agent outputs -/

theorem parseAgentJson_of_stages {text : List Char} {value : Json}
    (hwhole : serde.object (trimmed text) = none ∨ serde.object (trimmed text) = some value)
    (hfenced : lastFenced serde none text = none ∨ lastFenced serde none text = some value)
    (hlongest : ((openings 0 text).foldl (tryOpening serde) none).map (·.2.2) = some value) :
    parseAgentJson serde text = .ok value := by
  obtain ⟨⟨taken, start, _⟩, hbest, rfl⟩ := map_eq_some_iff.1 hlongest
  unfold parseAgentJson
  rcases hwhole with hwhole | hwhole
  · rcases hfenced with hfenced | hfenced
    · rw [hwhole, hfenced, hbest]
    · rw [hwhole, hfenced]
  · rw [hwhole]

theorem head?_dropWhile_append (h : ∃ c ∈ before, isWhitespace c = false) (text : List Char) :
    ∀ c ∈ ((before ++ text).dropWhile isWhitespace).head?, c ∈ before := by
  induction before with
  | nil => simp at h
  | cons d before ih =>
    cases hd : isWhitespace d with
    | true =>
      rw [cons_append, dropWhile_cons_of_pos hd]
      intro c hc
      refine mem_cons_of_mem _ (ih ?_ c hc)
      simpa [hd] using h
    | false =>
      rw [cons_append, dropWhile_cons_of_neg (by simp [hd])]
      rintro c ⟨⟩
      exact mem_cons_self

/-- A serialized object is found after any text without a brace or a backtick, by itself and in a
fence, whatever its strings hold. -/
theorem parseAgentJson_serialized (serde : Deserializer) (fields : List (String × Json))
    (hwell : (Json.object fields).WellFormed) (hreads : serde.Reads (.object fields))
    (before : List Char) (hbefore : '\x7b' ∉ before ∧ '\x60' ∉ before) :
    parseAgentJson serde (before ++ (Json.object fields).compact) = .ok (.object fields) ∧
      parseAgentJson serde (before ++ inFence (Json.object fields).compact) =
        .ok (.object fields) := by
  have hself := hreads []
  rw [append_nil] at hself
  constructor
  · refine parseAgentJson_of_stages ?_ (.inl ?_) ?_
    · by_cases hspace : ∃ c ∈ before, isWhitespace c = false
      · refine .inl (object_trimmed_eq_none fun c hc hbrace => hbefore.1 ?_)
        exact hbrace ▸ head?_dropWhile_append hspace _ c hc
      · right
        have htrim := @trimmed_compact fields before [] (by simpa using hspace) (by simp)
        rw [append_nil] at htrim
        rw [htrim]
        simp [Deserializer.object, hself]
    · exact lastFenced_of_newline serde none hbefore.2 (newline_not_mem_compact hwell)
    · simpa using @longest_object fields before [] serde hreads hbefore.1 (by simp)
  · refine parseAgentJson_of_stages (.inl ?_) (lastFenced_fenced hwell hreads hbefore.2) ?_
    · refine object_trimmed_eq_none fun c hc hbrace => ?_
      by_cases hspace : ∃ c ∈ before, isWhitespace c = false
      · exact hbefore.1 (hbrace ▸ head?_dropWhile_append hspace _ c hc)
      · rw [dropWhile_append_of_pos (by simpa using hspace)] at hc
        rw [hbrace] at hc
        exact absurd (some.inj hc) (by decide)
    · have hprefix : '\x7b' ∉ before ++ (fence ++ "json\n".toList) := by
        have hline : '\x7b' ∉ fence ++ "json\n".toList := by decide
        simp only [mem_append, not_or] at hline ⊢
        exact ⟨hbefore.1, hline⟩
      have hlongest := @longest_object fields _ ('\n' :: fence) serde hreads hprefix (by decide)
      simpa only [inFence, List.append_assoc] using hlongest

/-! ## A string with a fence and a brace -/

def sampleAnswer : List (String × Json) := [("text", .string "\x60\x60\x60\x7b")]

def sampleDeserializer : Deserializer where
  next text :=
    if (Json.object sampleAnswer).compact <+: text then
      some (.object sampleAnswer, (Json.object sampleAnswer).compact)
    else none
  consumed h := by
    split_ifs at h with hprefix
    cases h
    exact hprefix
  opens h := by
    split_ifs at h with hprefix
    obtain ⟨rest, rfl⟩ := hprefix
    exact ⟨'\x7b', rfl, .inr rfl⟩
  closes h := by
    split_ifs at h
    cases h
    exact getLast?_compact
  stable h rest := by
    split_ifs at h
    cases h
    exact if_pos (prefix_append _ rest)

theorem parseAgentJson_serialized_fence :
    parseAgentJson sampleDeserializer ("out: ".toList ++ (Json.object sampleAnswer).compact) =
        .ok (.object sampleAnswer) ∧ parseAgentJson sampleDeserializer
        ("out: ".toList ++ inFence (Json.object sampleAnswer).compact) =
        .ok (.object sampleAnswer) :=
  parseAgentJson_serialized sampleDeserializer sampleAnswer
    (.object _ (by decide) (by simp [sampleAnswer, Json.WellFormed.string]))
    (fun rest => by simp [sampleDeserializer])
    "out: ".toList (by decide)

end Gadgetron.Jobs
