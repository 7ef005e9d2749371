import Gadgetron.Knowledge.Frontmatter
import Gadgetron.Lib.Exec

/-!
# Obsidian notes

`parse_obsidian_note` and `serialize_obsidian_note`: a note is a YAML mapping between two fence
lines, left out when the mapping is empty, and a body; a block that is no YAML mapping is read as
legacy TOML.
-/

namespace Gadgetron.Knowledge

open Lib

inductive NoteFrontmatterFormat
  | none
  | yaml
  | legacyToml

inductive NoteFormatError
  | missingFence
  | invalidFrontmatter
  | serialize (error : String)

def NoteFormatError.toString : NoteFormatError → String
  | .missingFence => "note frontmatter fence is not closed"
  | .invalidFrontmatter =>
    "note frontmatter is neither an object-shaped YAML document nor legacy TOML"
  | .serialize error => "note frontmatter serialization failed: " ++ error

/-- The properties of a note; `V` stands for `serde_json::Value`. -/
abbrev Properties (V : Type) := OrdMap String V

structure ParsedObsidianNote (V : Type) where
  properties : Properties V
  body : List Char
  format : NoteFrontmatterFormat

/-- The YAML encoder and decoder, the TOML decoder, and the conversion of a TOML value. -/
structure NoteCodec (V T : Type) where
  yamlToString : Properties V → Except String (List Char)
  yamlFromStr : List Char → Option (Properties V)
  tomlFromStr : List Char → Option (List (String × T))
  toValue : T → Option V

/-! ## The closing fence -/

/-- The loop of `split_fenced`; `offset` characters of `raw` are in front of the segments. -/
def splitFencedLoop (raw : List Char) : List (List Char) → ℕ → Option (List Char × List Char)
  | [], _ => none
  | segment :: segments, offset =>
    let line := segment.rdropWhile fun c => c == '\r' || c == '\n'
    if line = fence then some (raw.take offset, raw.drop (offset + segment.length))
    else splitFencedLoop raw segments (offset + segment.length)

def splitFenced (raw : List Char) : Option (List Char × List Char) :=
  splitFencedLoop raw (splitInclusive '\n' raw) 0

theorem rdropWhile_crlf {l : List Char} (hl : '\n' ∉ l) :
    (l.rdropWhile fun c => c == '\r' || c == '\n') = fence ↔ IsFence l := by
  unfold IsFence
  rw [rdropWhile_congr fun c hc => ?_]
  rw [beq_eq_false_iff_ne.2 fun h : c = '\n' => hl (h ▸ hc), Bool.or_false]

theorem splitFencedLoop_eq_some_iff (before search : List Char) {fm body : List Char} :
    splitFencedLoop (before ++ search) (splitInclusive '\n' search) before.length =
        some (fm, body) ↔ ∃ fm', fm = before ++ fm' ∧ CutAt '\n' IsFence search fm' body := by
  induction search using line_induction '\n' generalizing before with
  | last l hl =>
    simp only [cutAt_of_notMem_iff hl]
    by_cases hnil : l = []
    · subst hnil
      simp [splitInclusive, splitFencedLoop, not_isFence_nil]
    · rw [splitInclusive_of_notMem hl hnil]
      simp only [splitFencedLoop, rdropWhile_crlf hl]
      by_cases hp : IsFence l
      · rw [if_pos hp]
        simp only [Option.some.injEq, Prod.mk.injEq, hp, true_and, List.take_left]
        constructor
        · rintro ⟨rfl, rfl⟩
          exact ⟨[], by simp, rfl, by simp⟩
        · rintro ⟨_, rfl, rfl, rfl⟩
          exact ⟨by simp, by simp⟩
      · rw [if_neg hp]
        simp [hp]
  | cons l rest hl ih =>
    have hline : ((l ++ ['\n']).rdropWhile fun c => c == '\r' || c == '\n') = fence ↔
        IsFence l := by
      rw [List.rdropWhile_concat_pos _ _ _ (by decide), rdropWhile_crlf hl]
    have hsplit : before ++ (l ++ '\n' :: rest) = before ++ (l ++ ['\n']) ++ rest := by simp
    rw [splitInclusive_append_cons hl]
    simp only [cutAt_append_cons_iff hl, splitFencedLoop, hline]
    rw [hsplit, ← List.length_append]
    by_cases hp : IsFence l
    · rw [if_pos hp, List.drop_left, List.append_assoc, List.take_left]
      simp only [Option.some.injEq, Prod.mk.injEq, hp, true_and, not_true_eq_false, false_and,
        or_false]
      constructor
      · rintro ⟨rfl, rfl⟩
        exact ⟨[], by simp, rfl, rfl⟩
      · rintro ⟨_, rfl, rfl, rfl⟩
        exact ⟨by simp, rfl⟩
    · rw [if_neg hp, ih (before ++ (l ++ ['\n']))]
      simp only [hp, false_and, not_false_eq_true, true_and, false_or]
      constructor
      · rintro ⟨fm', rfl, hcut⟩
        exact ⟨l ++ '\n' :: fm', by simp, fm', rfl, hcut⟩
      · rintro ⟨_, rfl, fm', rfl, hcut⟩
        exact ⟨fm', by simp, hcut⟩

theorem splitFenced_eq_some_iff {raw fm body : List Char} :
    splitFenced raw = some (fm, body) ↔ CutAt '\n' IsFence raw fm body := by
  have h := @splitFencedLoop_eq_some_iff [] raw fm body
  simpa [splitFenced] using h

/-! ## Notes -/

section

variable {V T : Type} (codec : NoteCodec V T)

def legacyProperties (legacy : List (String × T)) : Option (Properties V) := do
  let entries ← legacy.mapM fun entry => (codec.toValue entry.2).map fun value => (entry.1, value)
  return entries.foldl (fun properties entry => properties.insert entry.1 entry.2) .empty

def readProperties (frontmatter : List Char) :
    Except NoteFormatError (Properties V × NoteFrontmatterFormat) :=
  match codec.yamlFromStr frontmatter with
  | some properties => .ok (properties, .yaml)
  | none =>
    match (codec.tomlFromStr frontmatter).bind (legacyProperties codec) with
    | some properties => .ok (properties, .legacyToml)
    | none => .error .invalidFrontmatter

def parseObsidianNote (raw : List Char) : Except NoteFormatError (ParsedObsidianNote V) :=
  match afterOpen raw with
  | none => .ok ⟨.empty, raw, .none⟩
  | some text =>
    match splitFenced text with
    | none => .error .missingFence
    | some (frontmatter, body) => do
      let (properties, format) ← readProperties codec frontmatter
      .ok ⟨properties, body, format⟩

/-- The text of the encoder as it is written into a note. -/
def trimYaml (yaml : List Char) : List Char :=
  (((fence ++ ['\n']).isPrefixOf? yaml).getD yaml).rdropWhile isWhitespace

def serializeObsidianNote (properties : Properties V) (body : List Char) :
    Except NoteFormatError (List Char) :=
  if properties.isEmpty then .ok body
  else do
    let yaml ← (codec.yamlToString properties).mapError .serialize
    .ok (fence ++ ['\n'] ++ trimYaml yaml ++ ['\n'] ++ fence ++ bodyStart body ++ body)

/-- Writing a note and reading it back gives the same properties and body. -/
def NoteRoundTrips (properties : Properties V) (body : List Char) : Prop :=
  ∃ raw note, serializeObsidianNote codec properties body = .ok raw ∧
    parseObsidianNote codec raw = .ok note ∧ note.properties = properties ∧ note.body = body

theorem parseObsidianNote_eq_ok {raw : List Char} {note : ParsedObsidianNote V}
    (h : parseObsidianNote codec raw = .ok note) :
    (afterOpen raw = none ∧ note = ⟨.empty, raw, .none⟩) ∨
      ∃ text frontmatter, afterOpen raw = some text ∧
        CutAt '\n' IsFence text frontmatter note.body ∧
          readProperties codec frontmatter = .ok (note.properties, note.format) := by
  unfold parseObsidianNote at h
  cases hopen : afterOpen raw with
  | none =>
    simp only [hopen] at h
    exact .inl ⟨rfl, (Except.ok.inj h).symm⟩
  | some text =>
    cases hsplit : splitFenced text with
    | none =>
      simp only [hopen, hsplit] at h
      cases h
    | some found =>
      obtain ⟨frontmatter, body⟩ := found
      simp only [hopen, hsplit] at h
      obtain ⟨⟨properties, format⟩, hread, hnote⟩ := bind_eq_ok.1 h
      obtain rfl := Except.ok.inj hnote
      exact .inr ⟨text, frontmatter, rfl, splitFenced_eq_some_iff.1 hsplit, hread⟩

theorem noteRoundTrips_iff_of_isEmpty (properties : Properties V)
    (hempty : properties.isEmpty = true) (body : List Char) :
    NoteRoundTrips codec properties body ↔ afterOpen body = none := by
  have hraw : serializeObsidianNote codec properties body = .ok body := if_pos hempty
  constructor
  · rintro ⟨raw, note, hser, hparse, -, rfl⟩
    obtain rfl := Except.ok.inj (hraw.symm.trans hser)
    rcases parseObsidianNote_eq_ok codec hparse with ⟨hnone, -⟩ | ⟨text, fm, hopen, hcut, -⟩
    · exact hnone
    · have hlen := (hcut.length_lt not_isFence_nil).trans (length_afterOpen hopen)
      exact absurd hlen (lt_irrefl _)
  · intro hnone
    obtain rfl := OrdMap.isEmpty_iff.1 hempty
    refine ⟨body, ⟨.empty, body, .none⟩, hraw, ?_, rfl, rfl⟩
    unfold parseObsidianNote
    rw [hnone]

theorem noteRoundTrips_iff_of_not_isEmpty (properties : Properties V)
    (hempty : properties.isEmpty = false) (body : List Char) {yaml : List Char}
    (henc : codec.yamlToString properties = .ok yaml) : NoteRoundTrips codec properties body ↔
      body.head? ≠ some '\n' ∧ Lines '\n' (fun l => ¬IsFence l) (trimYaml yaml ++ ['\n']) ∧
        (readProperties codec (trimYaml yaml ++ ['\n'])).map Prod.fst = .ok properties := by
  have hraw : serializeObsidianNote codec properties body =
      .ok (fence ++ ['\n'] ++ (trimYaml yaml ++ ['\n'] ++ fence ++ bodyStart body ++ body)) := by
    unfold serializeObsidianNote
    rw [if_neg (by simp [hempty]), henc]
    simp [Except.mapError, bind, Except.bind]
  constructor
  · rintro ⟨raw, note, hser, hparse, rfl, rfl⟩
    obtain rfl := Except.ok.inj (hraw.symm.trans hser)
    rcases parseObsidianNote_eq_ok codec hparse with ⟨hnone, -⟩ | ⟨text, fm, hopen, hcut, hread⟩
    · rw [afterOpen_fence] at hnone
      cases hnone
    · rw [afterOpen_fence] at hopen
      obtain rfl := Option.some.inj hopen
      obtain ⟨rfl, hbody, hlines⟩ := cutAt_page_iff.1 hcut
      exact ⟨hbody, hlines, by rw [hread]; rfl⟩
  · rintro ⟨hbody, hlines, hread⟩
    cases hres : readProperties codec (trimYaml yaml ++ ['\n']) with
    | error e =>
      rw [hres] at hread
      cases hread
    | ok read =>
      obtain ⟨properties', format⟩ := read
      rw [hres] at hread
      obtain rfl := Except.ok.inj hread
      have hsplit := splitFenced_eq_some_iff.2 (cutAt_page_iff.2 ⟨rfl, hbody, hlines⟩)
      refine ⟨_, ⟨properties', body, format⟩, hraw, ?_, rfl, rfl⟩
      unfold parseObsidianNote
      rw [afterOpen_fence]
      simp only [hsplit, hres]
      rfl

/-- A note is read back exactly when, without properties, its body does not begin with a fence line
and, with properties, its body does not begin with a newline, no line of the YAML text is a fence,
and the text, its end trimmed, is read as the same mapping. -/
theorem note_round_trips_iff (properties : Properties V) (body : List Char) {yaml : List Char}
    (henc : codec.yamlToString properties = .ok yaml)
    (hdec : codec.yamlFromStr yaml = some properties) : NoteRoundTrips codec properties body ↔
      (properties.isEmpty = true → afterOpen body = none) ∧ (properties.isEmpty = false →
          body.head? ≠ some '\n' ∧ (∀ l ∈ (trimYaml yaml).splitOn '\n', ¬IsFence l) ∧
            (readProperties codec (trimYaml yaml ++ ['\n'])).map Prod.fst =
              (readProperties codec yaml).map Prod.fst) := by
  have hread : (readProperties codec yaml).map Prod.fst = .ok properties := by
    unfold readProperties
    rw [hdec]
    rfl
  cases hempty : properties.isEmpty with
  | true =>
    rw [noteRoundTrips_iff_of_isEmpty codec properties hempty]
    exact ⟨fun h => ⟨fun _ => h, fun h => by cases h⟩, fun h => h.1 rfl⟩
  | false =>
    rw [noteRoundTrips_iff_of_not_isEmpty codec properties hempty body henc, hread,
      lines_append_separator_iff]
    exact ⟨fun h => ⟨fun h => (by cases h), fun _ => h⟩, fun h => h.2 rfl⟩

end

def idProperties : Properties String := OrdMap.empty.insert "id" "x"

def idCodec : NoteCodec String String where
  yamlToString properties :=
    if properties.get? "id" = some "x" then .ok "id: x\n".toList else .error "unsupported"
  yamlFromStr text := if text = "id: x\n".toList then some idProperties else none
  tomlFromStr _ := none
  toValue value := some value

theorem id_note_round_trips : NoteRoundTrips idCodec idProperties "# Body\n".toList := by
  refine (note_round_trips_iff idCodec idProperties _ rfl rfl).2 ⟨fun h => ?_, fun _ => ?_⟩
  · cases h
  · exact ⟨by decide, by decide, rfl⟩

theorem id_note_loses_newline : idCodec.yamlToString idProperties = .ok "id: x\n".toList ∧
      idCodec.yamlFromStr "id: x\n".toList = some idProperties ∧
        ¬NoteRoundTrips idCodec idProperties "\n# Body\n".toList := by
  refine ⟨rfl, rfl, ?_⟩
  rintro ⟨raw, note, hser, hparse, -, hbody⟩
  obtain rfl := Except.ok.inj hser
  obtain rfl := Except.ok.inj hparse
  exact absurd hbody (by decide)

end Gadgetron.Knowledge
