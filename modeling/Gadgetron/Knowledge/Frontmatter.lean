import Gadgetron.Lib.Lines
import Gadgetron.Lib.OrdSet
import Gadgetron.Lib.Text

/-!
# Wiki pages with frontmatter

`parse_page` and `serialize_page` of the wiki: a page is a TOML block between two fence lines, left
out when no field is set, and a body.
-/

namespace Gadgetron.Knowledge

open Lib List Option Except

inductive WikiErrorKind
  | gitCorruption (path reason : String)
  deriving DecidableEq

structure WikiError where
  kind : WikiErrorKind
  message : String
  deriving DecidableEq

/-- The frontmatter of a page; `V` stands for `toml::Value`, a time is in nanoseconds. -/
structure WikiFrontmatter (V : Type) where
  tags : List String
  pageType : Option String
  (created updated : Option ℤ)
  (source confidence plugin pluginVersion : Option String)
  extra : OrdMap String V

structure ParsedPage (V : Type) where
  frontmatter : WikiFrontmatter V
  body : List Char

/-- The TOML encoder and decoder; the error is its text. -/
structure TomlCodec (V : Type) where
  toString : WikiFrontmatter V → Except String (List Char)
  fromStr : List Char → Except String (WikiFrontmatter V)

section

variable {V : Type}

def WikiFrontmatter.default : WikiFrontmatter V :=
  ⟨[], none, none, none, none, none, none, none, .empty⟩

def isEmpty (fm : WikiFrontmatter V) : Bool :=
  fm.tags.isEmpty && fm.pageType.isNone && fm.created.isNone && fm.updated.isNone &&
    fm.source.isNone && fm.confidence.isNone && fm.plugin.isNone && fm.pluginVersion.isNone &&
    fm.extra.isEmpty

theorem isEmpty_iff {fm : WikiFrontmatter V} : isEmpty fm = true ↔ fm = .default := by
  constructor
  · intro h
    simp only [isEmpty, Bool.and_eq_true, List.isEmpty_iff, isNone_iff_eq_none,
      OrdMap.isEmpty_iff] at h
    obtain ⟨⟨⟨⟨⟨⟨⟨⟨h1, h2⟩, h3⟩, h4⟩, h5⟩, h6⟩, h7⟩, h8⟩, h9⟩ := h
    cases fm
    simp only at h1 h2 h3 h4 h5 h6 h7 h8 h9
    subst h1 h2 h3 h4 h5 h6 h7 h8 h9
    rfl
  · rintro rfl
    rfl

end

/-! ## Fences -/

def fence : List Char := ['-', '-', '-']

/-- The line is a fence, with carriage returns after it or not. -/
def IsFence (line : List Char) : Prop := line.rdropWhile (· == '\r') = fence

instance (line : List Char) : Decidable (IsFence line) := inferInstanceAs (Decidable (_ = _))

def afterOpen (raw : List Char) : Option (List Char) :=
  (fence ++ ['\n']).isPrefixOf? raw <|> (fence ++ ['\r', '\n']).isPrefixOf? raw

/-- The text between the closing fence of a page and its body. -/
def bodyStart (body : List Char) : List Char := if body.head? = some '\n' then [] else ['\n']

/-- The loop of `split_frontmatter`; `fmLen` characters of `text` are in front of `search`. -/
def splitLoop (text : List Char) : ℕ → List Char → ℕ → Option (List Char × List Char)
  | 0, _, _ => none
  | fuel + 1, search, fmLen =>
    let lineEnd := search.findIdx (· == '\n')
    let line := search.take lineEnd
    if IsFence line then
      let afterClose := search.drop lineEnd
      some (text.take fmLen, (['\n'].isPrefixOf? afterClose).getD afterClose)
    else if lineEnd = search.length then none
    else splitLoop text fuel (search.drop (lineEnd + 1)) (fmLen + (lineEnd + 1))

def splitFrontmatter (raw : List Char) : Option (List Char × List Char) :=
  (afterOpen raw).bind fun text => splitLoop text (text.length + 1) text 0

theorem findIdx_newline {l rest : List Char} (hl : '\n' ∉ l) :
    (l ++ '\n' :: rest).findIdx (· == '\n') = l.length := by
  rw [findIdx_append, findIdx_eq_length.2 fun c hc => ?_]
  · simp [findIdx_cons]
  · exact beq_eq_false_iff_ne.2 fun h => hl (h ▸ hc)

theorem splitLoop_eq_some_iff (before search : List Char) {fuel : ℕ} (hf : search.length < fuel)
    {fm body : List Char} :
    splitLoop (before ++ search) fuel search before.length = some (fm, body) ↔
      ∃ fm', fm = before ++ fm' ∧ CutAt '\n' IsFence search fm' body := by
  induction search using line_induction '\n' generalizing before fuel with
  | last l hl =>
    obtain ⟨fuel, rfl⟩ : ∃ n, fuel = n + 1 := ⟨fuel - 1, by omega⟩
    have hidx : l.findIdx (· == '\n') = l.length :=
      findIdx_eq_length.2 fun c hc => beq_eq_false_iff_ne.2 fun h => hl (h ▸ hc)
    simp only [cutAt_of_notMem_iff hl, splitLoop, hidx, take_length, drop_length, take_left]
    by_cases hp : IsFence l
    · rw [if_pos hp]
      simp only [some.injEq, Prod.mk.injEq, hp, true_and]
      constructor
      · rintro ⟨rfl, rfl⟩
        exact ⟨[], by simp, rfl, rfl⟩
      · rintro ⟨_, rfl, rfl, rfl⟩
        exact ⟨by simp, rfl⟩
    · simp [hp]
  | cons l rest hl ih =>
    obtain ⟨fuel, rfl⟩ : ∃ n, fuel = n + 1 := ⟨fuel - 1, by omega⟩
    have hrest : rest.length < fuel := by
      rw [List.length_append, length_cons] at hf
      omega
    simp only [cutAt_append_cons_iff hl, splitLoop, findIdx_newline hl, take_left, drop_left]
    by_cases hp : IsFence l
    · rw [if_pos hp]
      simp only [some.injEq, Prod.mk.injEq, hp, true_and, not_true_eq_false, false_and, or_false]
      have hstrip : ['\n'].isPrefixOf? ('\n' :: rest) = some rest := rfl
      rw [hstrip, getD_some]
      constructor
      · rintro ⟨rfl, rfl⟩
        exact ⟨[], by simp, rfl, rfl⟩
      · rintro ⟨_, rfl, rfl, rfl⟩
        exact ⟨by simp, rfl⟩
    · have hne : ¬l.length = (l ++ '\n' :: rest).length := by simp
      have hdrop : (l ++ '\n' :: rest).drop (l.length + 1) = rest := by
        rw [drop_append]
        simp
      have hstep := ih (before ++ (l ++ ['\n'])) hrest
      rw [show before ++ (l ++ ['\n']) ++ rest = before ++ (l ++ '\n' :: rest) by simp,
        show (before ++ (l ++ ['\n'])).length = before.length + (l.length + 1) by simp] at hstep
      rw [if_neg hp, if_neg hne, hdrop, hstep]
      simp only [hp, false_and, not_false_eq_true, true_and, false_or]
      constructor
      · rintro ⟨fm', rfl, hcut⟩
        exact ⟨l ++ '\n' :: fm', by simp, fm', rfl, hcut⟩
      · rintro ⟨_, rfl, fm', rfl, hcut⟩
        exact ⟨fm', by simp, hcut⟩

theorem splitFrontmatter_eq_some_iff {raw fm body : List Char} :
    splitFrontmatter raw = some (fm, body) ↔
      ∃ text, afterOpen raw = some text ∧ CutAt '\n' IsFence text fm body := by
  unfold splitFrontmatter
  rw [bind_eq_some_iff]
  refine exists_congr fun text => and_congr_right fun _ => ?_
  have h := @splitLoop_eq_some_iff [] text _ (Nat.lt_succ_self text.length) fm body
  simpa using h

/-! ## The cut of a written page -/

theorem not_isFence_nil : ¬IsFence [] := by decide

theorem IsFence.append_eq {before l text : List Char} (hl : IsFence l)
    (h : before ++ l = text ++ fence) : l = fence ∧ before = text := by
  have hnil : l ≠ [] := fun hnil => not_isFence_nil (hnil ▸ hl)
  have hlast : l.getLast hnil = '-' := by
    have hget := congrArg List.getLast? h
    rw [getLast?_append_of_ne_nil _ hnil, getLast?_eq_some_getLast hnil,
      getLast?_append_of_ne_nil _ (by decide)] at hget
    exact some.inj hget
  have hself : l.rdropWhile (· == '\r') = l := by
    rw [rdropWhile_eq_self_iff]
    intro _
    rw [hlast]
    decide
  have hfence : l = fence := hself.symm.trans hl
  subst hfence
  exact ⟨rfl, append_cancel_right h⟩

theorem cutAt_page_iff {text body before : List Char} :
    CutAt '\n' IsFence (text ++ fence ++ bodyStart body ++ body) before body ↔
      before = text ∧ body.head? ≠ some '\n' ∧ Lines '\n' (fun l => ¬IsFence l) text := by
  constructor
  · intro h
    obtain ⟨hlines, l, hl, hp, h⟩ := h.exists_line
    by_cases hb : body.head? = some '\n'
    · obtain ⟨rest, rfl⟩ := head?_eq_some_iff.1 hb
      -- the line cut at would have to end in the dash of the fence and in a newline
      rw [bodyStart, if_pos hb, append_nil] at h
      rcases h with h | ⟨-, h⟩
      · rw [append_cons (before ++ l)] at h
        have hlast := congrArg List.getLast? (append_cancel_right h)
        rw [getLast?_concat, getLast?_append_of_ne_nil _ (by decide)] at hlast
        exact absurd (some.inj hlast) (by decide)
      · cases h
    · rw [bodyStart, if_neg hb] at h
      rcases h with h | ⟨h, rfl⟩
      · rw [append_cons (before ++ l)] at h
        obtain ⟨rfl, rfl⟩ := hp.append_eq (append_cancel_right (append_cancel_right h)).symm
        exact ⟨rfl, hb, hlines⟩
      · have hnil : l ≠ [] := fun hnil => not_isFence_nil (hnil ▸ hp)
        have hlast := congrArg List.getLast? h
        rw [append_nil, getLast?_concat, getLast?_append_of_ne_nil _ hnil] at hlast
        exact absurd (mem_of_getLast? hlast.symm) hl
  · rintro ⟨rfl, hb, hlines⟩
    rw [bodyStart, if_neg hb, List.append_assoc, List.append_assoc]
    exact hlines.cutAt (by decide) (by decide)

/-! ## Pages -/

section

variable {V : Type} (codec : TomlCodec V)

def frontmatterError (what e : String) : WikiError :=
  let reason := "frontmatter " ++ what ++ " failed: " ++ e
  ⟨.gitCorruption "" reason, reason⟩

def parsePage (raw : List Char) : Except WikiError (ParsedPage V) :=
  match splitFrontmatter raw with
  | none => .ok ⟨.default, raw⟩
  | some (fmSrc, body) => do
    let frontmatter ← (codec.fromStr fmSrc).mapError (frontmatterError "TOML parse")
    .ok ⟨frontmatter, body⟩

def serializePage (fm : WikiFrontmatter V) (body : List Char) : Except WikiError (List Char) :=
  if isEmpty fm then .ok body
  else do
    let tomlStr ← (codec.toString fm).mapError (frontmatterError "serialize")
    .ok (fence ++ ['\n'] ++ tomlStr ++ fence ++ bodyStart body ++ body)

/-- Writing a page and reading it back gives the same frontmatter and body. -/
def RoundTrips (fm : WikiFrontmatter V) (body : List Char) : Prop :=
  ∃ raw, serializePage codec fm body = .ok raw ∧ parsePage codec raw = .ok ⟨fm, body⟩

/-- The body of a page without frontmatter is not taken for one with frontmatter. -/
def Unfenced (body : List Char) : Prop :=
  ∀ text, afterOpen body = some text → ∀ l ∈ text.splitOn '\n', ¬IsFence l

theorem splitFrontmatter_eq_none_iff {raw : List Char} :
    splitFrontmatter raw = none ↔ Unfenced raw := by
  rw [eq_none_iff_forall_ne_some]
  constructor
  · intro h text hopen l hl hp
    obtain ⟨fm, body, hcut⟩ := exists_cutAt_iff.2 ⟨l, hl, hp⟩
    exact h (fm, body) (splitFrontmatter_eq_some_iff.2 ⟨text, hopen, hcut⟩)
  · rintro h ⟨fm, body⟩ hsome
    obtain ⟨text, hopen, hcut⟩ := splitFrontmatter_eq_some_iff.1 hsome
    obtain ⟨l, hl, hp⟩ := exists_cutAt_iff.1 ⟨fm, body, hcut⟩
    exact h text hopen l hl hp

theorem length_afterOpen {raw text : List Char} (h : afterOpen raw = some text) :
    text.length < raw.length := by
  unfold afterOpen at h
  rw [orElse_eq_some] at h
  rcases h with h | ⟨-, h⟩
  all_goals
    obtain rfl := isPrefixOf?_eq_some_iff.1 h
    simp only [List.length_append, length_cons, length_nil]
    omega

theorem length_splitFrontmatter {raw fm body : List Char}
    (h : splitFrontmatter raw = some (fm, body)) : body.length < raw.length := by
  obtain ⟨text, hopen, hcut⟩ := splitFrontmatter_eq_some_iff.1 h
  exact (hcut.length_lt not_isFence_nil).trans (length_afterOpen hopen)

theorem afterOpen_fence (text : List Char) : afterOpen (fence ++ ['\n'] ++ text) = some text := rfl

theorem parsePage_eq_ok {raw : List Char} {page : ParsedPage V}
    (h : parsePage codec raw = .ok page) : (splitFrontmatter raw = none ∧ page = ⟨.default, raw⟩) ∨
      ∃ fmSrc, splitFrontmatter raw = some (fmSrc, page.body) ∧
        codec.fromStr fmSrc = .ok page.frontmatter := by
  unfold parsePage at h
  cases hsplit : splitFrontmatter raw with
  | none =>
    rw [hsplit] at h
    exact .inl ⟨rfl, (ok.inj h).symm⟩
  | some found =>
    obtain ⟨fmSrc, body⟩ := found
    rw [hsplit] at h
    cases hdec : codec.fromStr fmSrc with
    | error e =>
      simp only [hdec] at h
      cases h
    | ok frontmatter =>
      simp only [hdec] at h
      obtain rfl := ok.inj h
      exact .inr ⟨fmSrc, rfl, hdec⟩

variable {fm : WikiFrontmatter V}

theorem roundTrips_iff_of_isEmpty (hfm : isEmpty fm = true)
    (body : List Char) : RoundTrips codec fm body ↔ Unfenced body := by
  rw [← splitFrontmatter_eq_none_iff]
  have hraw : serializePage codec fm body = .ok body := if_pos hfm
  obtain rfl := isEmpty_iff.1 hfm
  constructor
  · rintro ⟨raw, hser, hparse⟩
    obtain rfl := ok.inj (hraw.symm.trans hser)
    rcases parsePage_eq_ok codec hparse with ⟨hnone, -⟩ | ⟨fmSrc, hsome, -⟩
    · exact hnone
    · exact absurd (length_splitFrontmatter hsome) (lt_irrefl _)
  · intro hnone
    refine ⟨body, hraw, ?_⟩
    unfold parsePage
    rw [hnone]

theorem roundTrips_iff_of_not_isEmpty (hfm : isEmpty fm = false)
    (body : List Char) {tomlStr : List Char} (henc : codec.toString fm = .ok tomlStr)
    (hdec : codec.fromStr tomlStr = .ok fm) : RoundTrips codec fm body ↔
      body.head? ≠ some '\n' ∧ Lines '\n' (fun l => ¬IsFence l) tomlStr := by
  have hraw : serializePage codec fm body =
      .ok (fence ++ ['\n'] ++ (tomlStr ++ fence ++ bodyStart body ++ body)) := by
    unfold serializePage
    rw [if_neg (by simp [hfm]), henc]
    simp [Except.mapError, bind, Except.bind]
  have hsplit : ∀ fmSrc, splitFrontmatter
      (fence ++ ['\n'] ++ (tomlStr ++ fence ++ bodyStart body ++ body)) = some (fmSrc, body) ↔
        fmSrc = tomlStr ∧ body.head? ≠ some '\n' ∧ Lines '\n' (fun l => ¬IsFence l) tomlStr := by
    intro fmSrc
    rw [splitFrontmatter_eq_some_iff, afterOpen_fence, ← cutAt_page_iff]
    simp
  constructor
  · rintro ⟨raw, hser, hparse⟩
    obtain rfl := ok.inj (hraw.symm.trans hser)
    rcases parsePage_eq_ok codec hparse with ⟨-, hdefault⟩ | ⟨fmSrc, hsome, -⟩
    · -- a page read as one without frontmatter has the default frontmatter
      have hempty : isEmpty fm = true := isEmpty_iff.2 (congrArg ParsedPage.frontmatter hdefault)
      rw [hfm] at hempty
      cases hempty
    · exact ((hsplit fmSrc).1 hsome).2
  · intro h
    refine ⟨_, hraw, ?_⟩
    unfold parsePage
    rw [(hsplit tomlStr).2 ⟨rfl, h⟩]
    simp only [hdec]
    rfl

/-- A page is read back exactly when, without frontmatter, its body does not open with a fence that
a later line closes and, with frontmatter, its body does not begin with a newline and its TOML text
is made of complete lines none of which is a fence. -/
theorem page_round_trips_iff (fm : WikiFrontmatter V) (body : List Char) {tomlStr : List Char}
    (henc : codec.toString fm = .ok tomlStr) (hdec : codec.fromStr tomlStr = .ok fm) :
    RoundTrips codec fm body ↔ (isEmpty fm = true → Unfenced body) ∧ (isEmpty fm = false →
          body.head? ≠ some '\n' ∧ Lines '\n' (fun l => ¬IsFence l) tomlStr) := by
  cases hfm : isEmpty fm with
  | true =>
    rw [roundTrips_iff_of_isEmpty codec hfm]
    exact ⟨fun h => ⟨fun _ => h, fun h => by cases h⟩, fun h => h.1 rfl⟩
  | false =>
    rw [roundTrips_iff_of_not_isEmpty codec hfm body henc hdec]
    exact ⟨fun h => ⟨fun h => (by cases h), fun _ => h⟩, fun h => h.2 rfl⟩

/-- A page of the type `note`, and its TOML text. -/
def noteFrontmatter : WikiFrontmatter String := { WikiFrontmatter.default with pageType := "note" }

def noteToml : List Char := "type = \"note\"\n".toList

def noteCodec : TomlCodec String where
  toString fm := if fm.pageType = some "note" then .ok noteToml else .error "unsupported"
  fromStr text := if text = noteToml then .ok noteFrontmatter else .error "unsupported"

theorem note_page_round_trips : RoundTrips noteCodec noteFrontmatter "# Hello\n".toList := by
  refine (page_round_trips_iff noteCodec noteFrontmatter _ rfl rfl).2 ⟨fun h => ?_, fun _ => ?_⟩
  · cases h
  · refine ⟨by decide, ?_⟩
    have hline : '\n' ∉ "type = \"note\"".toList := by decide
    exact .cons hline (by decide) .nil

theorem note_page_loses_newline : noteCodec.toString noteFrontmatter = .ok noteToml ∧
      noteCodec.fromStr noteToml = .ok noteFrontmatter ∧
        ¬RoundTrips noteCodec noteFrontmatter "\nHello\n".toList := by
  refine ⟨rfl, rfl, ?_⟩
  rintro ⟨raw, hser, hparse⟩
  obtain rfl := ok.inj hser
  have hbody := congrArg (Except.map ParsedPage.body) hparse
  exact absurd hbody (by decide)

end

end Gadgetron.Knowledge
