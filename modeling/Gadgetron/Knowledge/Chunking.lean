import Gadgetron.Lib.Text
import Gadgetron.Lib.Words

/-!
# The chunks of a page

`chunk_page` cuts the body of a wiki page at the headings of the second level, a section that is too
long at its paragraphs, and merges neighbours of which one is too short.
-/

namespace Gadgetron.Knowledge

open Lib List

def chunkMaxTokens : ℕ := 512

def chunkMinTokens : ℕ := 64

structure Chunk where
  pageName : String
  chunkIndex : ℕ
  sectionName : Option (List Char)
  content : List Char

structure ChunkDraft where
  sectionName : Option (List Char)
  content : List Char

def countTokens (text : List Char) : ℕ := (words isWhitespace text).length

def normalizeChunk (content : List Char) : Option (List Char) :=
  let trimmed := strip isWhitespace content
  if trimmed.isEmpty then none else some trimmed

def joinChunks (left right : List Char) : List Char :=
  match normalizeChunk left, normalizeChunk right with
  | some left, some right => left ++ '\n' :: '\n' :: right
  | some left, none => left
  | none, some right => right
  | none, none => []

/-! ## Sections -/

def headingMark : List Char := "## ".toList

/-- `strip_prefix("## ")` on a line without its end. -/
def stripHeading (line : List Char) : Option (List Char) :=
  headingMark.isPrefixOf? (line.rdropWhile fun c => c = '\n' || c = '\r')

/-- `str::lines`: without the end of a line, `\n` or `\r\n`. -/
def lines (text : List Char) : List (List Char) :=
  (splitInclusive '\n' text).map fun line =>
    if line.getLast? = some '\n' then
      if line.dropLast.getLast? = some '\r' then line.dropLast.dropLast else line.dropLast
    else line

def hasH2 (body : List Char) : Bool :=
  (lines body).any fun line => headingMark.isPrefixOf (line.rdropWhile (· = '\r'))

def pushSection (out : List ChunkDraft) (sectionName : Option (List Char)) (content : List Char) :
    List ChunkDraft :=
  match normalizeChunk content with
  | some content => out ++ [⟨sectionName, content⟩]
  | none => out

/-- The variables of the loop in `split_sections`. -/
structure Sections where
  out : List ChunkDraft
  pendingIntro : List Char
  currentSection : Option (List Char)
  currentContent : List Char

def Sections.line (s : Sections) (line : List Char) : Sections :=
  match stripHeading line with
  | some heading =>
    let heading := strip isWhitespace heading
    match s.currentSection with
    | some prevSection =>
      { s with
        out := pushSection s.out (some prevSection) s.currentContent
        currentContent := []
        currentSection := some heading }
    | none =>
      if (strip isWhitespace s.pendingIntro).isEmpty then
        { s with currentSection := some heading }
      else
        { s with
          currentContent := s.pendingIntro
          pendingIntro := []
          currentSection := some heading }
  | none =>
    if s.currentSection.isSome then { s with currentContent := s.currentContent ++ line }
    else { s with pendingIntro := s.pendingIntro ++ line }

def Sections.finish (s : Sections) : List ChunkDraft :=
  match s.currentSection with
  | some heading => pushSection s.out (some heading) s.currentContent
  | none => pushSection s.out none s.pendingIntro

def splitSections (body : List Char) : List ChunkDraft :=
  if !hasH2 body then (normalizeChunk body).toList.map fun content => ⟨none, content⟩
  else ((splitInclusive '\n' body).foldl Sections.line ⟨[], [], none, []⟩).finish

/-! ## Paragraphs -/

def splitParagraphs (content : List Char) : List (List Char) :=
  (splitPairs '\n' content).filterMap normalizeChunk

/-- The loop of `split_oversize_section`, on `out` and `current`. -/
def packParagraph (sectionName : Option (List Char)) (acc : List ChunkDraft × List Char)
    (paragraph : List Char) : List ChunkDraft × List Char :=
  let (out, current) := acc
  if current.isEmpty then
    if chunkMaxTokens < countTokens paragraph then (out ++ [⟨sectionName, paragraph⟩], current)
    else (out, paragraph)
  else
    let candidate := joinChunks current paragraph
    if countTokens candidate ≤ chunkMaxTokens then (out, candidate)
    else
      let out := out ++ [⟨sectionName, current⟩]
      if chunkMaxTokens < countTokens paragraph then (out ++ [⟨sectionName, paragraph⟩], [])
      else (out, paragraph)

def splitOversizeSection (draft : ChunkDraft) : List ChunkDraft :=
  if countTokens draft.content ≤ chunkMaxTokens then [draft]
  else
    let paragraphs := splitParagraphs draft.content
    if paragraphs.length ≤ 1 then [draft]
    else
      let (out, current) := paragraphs.foldl (packParagraph draft.sectionName) ([], [])
      let out := if current.isEmpty then out else out ++ [⟨draft.sectionName, current⟩]
      if out.isEmpty then [draft] else out

/-! ## Small chunks -/

def ChunkDraft.absorb (left right : ChunkDraft) : ChunkDraft where
  sectionName := if left.sectionName.isNone then right.sectionName else left.sectionName
  content := joinChunks left.content right.content

def mergeSmallFrom (chunks : List ChunkDraft) (idx : ℕ) : List ChunkDraft :=
  match _h : chunks[idx]? with
  | none => chunks
  | some chunk =>
    if chunkMinTokens ≤ countTokens chunk.content then mergeSmallFrom chunks (idx + 1)
    else
      match hnext : chunks[idx + 1]? with
      | some next =>
        mergeSmallFrom ((chunks.eraseIdx (idx + 1)).set idx (chunk.absorb next)) idx
      | none =>
        if 0 < idx then
          match chunks[idx - 1]? with
          | some prev =>
            mergeSmallFrom ((chunks.eraseIdx idx).set (idx - 1) (prev.absorb chunk)) (idx - 1)
          | none => chunks
        else chunks
  termination_by 2 * chunks.length - idx
  decreasing_by
    all_goals have hidx := (List.getElem?_eq_some_iff.1 _h).1
    · omega
    · have hlt := (List.getElem?_eq_some_iff.1 hnext).1
      rw [length_set, length_eraseIdx_of_lt hlt]
      omega
    · rw [length_set, length_eraseIdx_of_lt hidx]
      omega

def mergeSmallChunks (chunks : List ChunkDraft) : List ChunkDraft :=
  if chunks.length < 2 then chunks else mergeSmallFrom chunks 0

def chunkPage (pageName : String) (body : List Char) : List Chunk :=
  if (strip isWhitespace body).isEmpty then []
  else
    let drafts := (splitSections body).flatMap splitOversizeSection
    let drafts := if 1 < drafts.length then mergeSmallChunks drafts else drafts
    drafts.zipIdx.map fun (draft, chunkIndex) =>
      ⟨pageName, chunkIndex, draft.sectionName, draft.content⟩

/-! ## Words of the parts -/

def draftWords (drafts : List ChunkDraft) : List (List Char) :=
  drafts.flatMap fun draft => words isWhitespace draft.content

@[simp] theorem draftWords_append (a b : List ChunkDraft) :
    draftWords (a ++ b) = draftWords a ++ draftWords b := flatMap_append

@[simp] theorem draftWords_singleton (draft : ChunkDraft) :
    draftWords [draft] = words isWhitespace draft.content := flatMap_singleton ..

@[simp] theorem draftWords_nil : draftWords [] = [] := rfl

@[simp] theorem draftWords_cons (draft : ChunkDraft) (drafts : List ChunkDraft) :
    draftWords (draft :: drafts) = words isWhitespace draft.content ++ draftWords drafts := rfl

theorem words_normalizeChunk (content : List Char) :
    (normalizeChunk content).toList.flatMap (words isWhitespace) = words isWhitespace content := by
  unfold normalizeChunk
  dsimp only
  split_ifs with h
  · exact (words_eq_nil_of_strip (List.isEmpty_iff.1 h)).symm
  · rw [Option.toList_some, flatMap_singleton, words_strip]

theorem isWhitespace_newline : isWhitespace '\n' = true := by decide

theorem words_joinChunks (left right : List Char) : words isWhitespace (joinChunks left right) =
      words isWhitespace left ++ words isWhitespace right := by
  rw [← words_normalizeChunk left, ← words_normalizeChunk right]
  unfold joinChunks
  cases normalizeChunk left <;> cases normalizeChunk right <;>
    simp [words_append_blank isWhitespace_newline, words_cons_blank isWhitespace_newline]

theorem draftWords_pushSection (out : List ChunkDraft) (sectionName : Option (List Char))
    (content : List Char) : draftWords (pushSection out sectionName content) =
      draftWords out ++ words isWhitespace content := by
  rw [← words_normalizeChunk content]
  unfold pushSection
  cases normalizeChunk content <;> simp

/-! ## Words of the sections -/

def beginsSection (line : List Char) : Bool := (stripHeading line).isSome

def withoutHeadings (body : List Char) : List Char :=
  ((splitInclusive '\n' body).filter fun line => !beginsSection line).flatten

theorem words_withoutHeadings (body : List Char) : words isWhitespace (withoutHeadings body) =
      ((splitInclusive '\n' body).filter fun line => !beginsSection line).flatMap
        (words isWhitespace) :=
  words_flatten ((pairwise_closed_splitInclusive isWhitespace_newline body).filter _)

theorem words_body (body : List Char) :
    words isWhitespace body = (splitInclusive '\n' body).flatMap (words isWhitespace) := by
  conv_lhs => rw [← flatten_splitInclusive '\n' body]
  exact words_flatten (pairwise_closed_splitInclusive isWhitespace_newline body)

namespace Sections

def kept (s : Sections) : List (List Char) :=
  draftWords s.out ++ words isWhitespace s.pendingIntro ++ words isWhitespace s.currentContent

/-- Only one of the two buffers of the loop is in use. -/
structure Ready (s : Sections) : Prop where
  content_of_none : s.currentSection = none → s.currentContent = []
  intro_of_some : s.currentSection ≠ none → words isWhitespace s.pendingIntro = []

/-- A line can be added to either buffer. -/
structure Seamless (s : Sections) : Prop where
  intro : Closed isWhitespace s.pendingIntro
  content : Closed isWhitespace s.currentContent

variable {s : Sections}

theorem draftWords_finish (h : s.Ready) : draftWords s.finish = s.kept := by
  unfold finish kept
  cases hs : s.currentSection with
  | none => simp [draftWords_pushSection, h.content_of_none hs]
  | some heading => simp [draftWords_pushSection, h.intro_of_some (by simp [hs])]

theorem line_of_heading {line heading : List Char} (h : s.Ready)
    (hline : stripHeading line = some heading) :
    (s.line line).kept = s.kept ∧ (s.line line).Ready ∧ (s.Seamless → (s.line line).Seamless) := by
  unfold Sections.line
  simp only [hline]
  cases hs : s.currentSection with
  | some prevSection =>
    have hintro := h.intro_of_some (by simp [hs])
    refine ⟨by simp [kept, draftWords_pushSection, hintro], ⟨by simp, fun _ => hintro⟩, ?_⟩
    exact fun hseam => ⟨hseam.intro, closed_nil⟩
  | none =>
    have hcontent := h.content_of_none hs
    dsimp only
    split_ifs with hblank
    · have hintro := words_eq_nil_of_strip (List.isEmpty_iff.1 hblank)
      exact ⟨rfl, ⟨by simp, fun _ => hintro⟩, fun hseam => ⟨hseam.intro, hseam.content⟩⟩
    · refine ⟨by simp [kept, hcontent], ⟨by simp, fun _ => rfl⟩, ?_⟩
      exact fun hseam => ⟨closed_nil, hseam.intro⟩

theorem line_of_text {line : List Char} (h : s.Ready) (hseam : s.Seamless)
    (hline : stripHeading line = none) :
    (s.line line).kept = s.kept ++ words isWhitespace line ∧ (s.line line).Ready ∧
      (Closed isWhitespace line → (s.line line).Seamless) := by
  unfold Sections.line
  simp only [hline]
  split_ifs with hs
  · refine ⟨by simp [kept, words_append hseam.content], ⟨fun hnone => ?_, h.intro_of_some⟩, ?_⟩
    · rw [show s.currentSection = none from hnone] at hs
      cases hs
    · exact fun hclosed => ⟨hseam.intro, hseam.content.append hclosed⟩
  · have hnone : s.currentSection = none := by simpa using hs
    have hcontent := h.content_of_none hnone
    refine ⟨by simp [kept, words_append hseam.intro, hcontent],
      ⟨fun _ => hcontent, fun hsome => absurd hnone hsome⟩, ?_⟩
    exact fun hclosed => ⟨hseam.intro.append hclosed, hseam.content⟩

theorem foldl_line {ls : List (List Char)} (h : s.Ready)
    (hls : ls.Pairwise fun a _ => Closed isWhitespace a) (hseam : ls ≠ [] → s.Seamless) :
    draftWords (ls.foldl Sections.line s).finish =
      s.kept ++ (ls.filter fun line => !beginsSection line).flatMap (words isWhitespace) := by
  induction ls generalizing s with
  | nil => simpa using draftWords_finish h
  | cons line ls ih =>
    obtain ⟨hclosed, hls⟩ := pairwise_cons.1 hls
    have hs := hseam (cons_ne_nil line ls)
    have hline : ls ≠ [] → Closed isWhitespace line := by
      intro hne
      obtain ⟨b, hb⟩ := exists_mem_of_ne_nil ls hne
      exact hclosed b hb
    rw [foldl_cons]
    cases hheading : stripHeading line with
    | some heading =>
      obtain ⟨hkept, hready, hnext⟩ := line_of_heading h hheading
      rw [ih hready hls fun _ => hnext hs, hkept,
        filter_cons_of_neg (by simp [beginsSection, hheading])]
    | none =>
      obtain ⟨hkept, hready, hnext⟩ := line_of_text h hs hheading
      rw [ih hready hls fun hne => hnext (hline hne), hkept,
        filter_cons_of_pos (by simp [beginsSection, hheading]), flatMap_cons,
        List.append_assoc]

end Sections

theorem beginsSection_eq_false {body line : List Char} (h : hasH2 body = false)
    (hline : line ∈ splitInclusive '\n' body) : beginsSection line = false := by
  by_contra hbegins
  obtain ⟨heading, hheading⟩ : ∃ heading, stripHeading line = some heading := by
    rw [← Option.isSome_iff_exists]
    exact Bool.not_eq_false _ ▸ hbegins
  have hprefix : headingMark <+: line := by
    have hstart : headingMark <+: line.rdropWhile fun c => c = '\n' || c = '\r' :=
      ⟨heading, (isPrefixOf?_eq_some_iff.1 hheading).symm⟩
    exact hstart.trans ( rdropWhile_prefix _ _)
  have hend : ∀ text : List Char, headingMark <+: text →
      headingMark.isPrefixOf (text.rdropWhile (· = '\r')) = true := fun text htext =>
    isPrefixOf_iff_prefix.2 (prefix_rdropWhile htext (forall_mem_of_optionAll (by decide)))
  have hcut : ∀ text : List Char, ∀ c, headingMark <+: text → text.getLast? = some c → c ≠ ' ' →
      headingMark <+: text.dropLast := by
    intro text c htext hc hne
    refine prefix_dropLast htext ?_
    rw [hc]
    exact fun hlast => hne (Option.some.inj hlast)
  have hnone := List.any_eq_false.1 h _ (List.mem_map_of_mem hline)
  apply hnone
  split_ifs with hnl hcr
  · exact hend _ (hcut _ _ (hcut _ _ hprefix hnl (by decide)) hcr (by decide))
  · exact hend _ (hcut _ _ hprefix hnl (by decide))
  · exact hend _ hprefix

theorem draftWords_splitSections (body : List Char) :
    draftWords (splitSections body) = words isWhitespace (withoutHeadings body) := by
  rw [words_withoutHeadings]
  unfold splitSections
  cases hh2 : hasH2 body with
  | false =>
    rw [filter_eq_self.2 fun line hline => by simp [beginsSection_eq_false hh2 hline],
      ← words_body, ← words_normalizeChunk body]
    cases normalizeChunk body <;> simp
  | true =>
    have hready : Sections.Ready ⟨[], [], none, []⟩ := ⟨fun _ => rfl, by simp⟩
    have hseam : Sections.Seamless ⟨[], [], none, []⟩ := ⟨closed_nil, closed_nil⟩
    exact Sections.foldl_line hready (pairwise_closed_splitInclusive isWhitespace_newline body)
      fun _ => hseam

/-! ## Words of the paragraphs -/

theorem words_splitParagraphs (content : List Char) :
    (splitParagraphs content).flatMap (words isWhitespace) = words isWhitespace content := by
  rw [← words_splitPairs isWhitespace_newline content, splitParagraphs]
  induction splitPairs '\n' content with
  | nil => rfl
  | cons part parts ih =>
    rw [flatMap_cons, ← ih, ← words_normalizeChunk part, filterMap_cons]
    cases normalizeChunk part <;> simp

theorem packParagraph_words (sectionName : Option (List Char)) (acc : List ChunkDraft × List Char)
    (paragraph : List Char) : draftWords (packParagraph sectionName acc paragraph).1 ++
        words isWhitespace (packParagraph sectionName acc paragraph).2 =
      draftWords acc.1 ++ words isWhitespace acc.2 ++ words isWhitespace paragraph := by
  obtain ⟨out, current⟩ := acc
  unfold packParagraph
  dsimp only
  split_ifs with hempty <;>
    first
    | (obtain rfl := List.isEmpty_iff.1 hempty; simp)
    | simp [words_joinChunks]

theorem foldl_packParagraph_words (sectionName : Option (List Char))
    (paragraphs : List (List Char)) (acc : List ChunkDraft × List Char) :
    draftWords (paragraphs.foldl (packParagraph sectionName) acc).1 ++
        words isWhitespace (paragraphs.foldl (packParagraph sectionName) acc).2 =
      draftWords acc.1 ++ words isWhitespace acc.2 ++ paragraphs.flatMap (words isWhitespace) := by
  induction paragraphs generalizing acc with
  | nil => simp
  | cons paragraph paragraphs ih =>
    rw [foldl_cons, ih, packParagraph_words, flatMap_cons, List.append_assoc]

theorem draftWords_splitOversizeSection (draft : ChunkDraft) :
    draftWords (splitOversizeSection draft) = words isWhitespace draft.content := by
  have hfold := foldl_packParagraph_words draft.sectionName (splitParagraphs draft.content) ([], [])
  rw [words_splitParagraphs] at hfold
  unfold splitOversizeSection
  dsimp only
  generalize (splitParagraphs draft.content).foldl (packParagraph draft.sectionName) ([], []) = acc
    at hfold ⊢
  obtain ⟨out, current⟩ := acc
  simp only [draftWords_nil, words_nil, nil_append] at hfold
  dsimp only
  split_ifs with _ _ hempty hout
  all_goals try exact draftWords_singleton draft
  · rw [← hfold, List.isEmpty_iff.1 hempty, words_nil, append_nil]
  · rw [draftWords_append, draftWords_singleton, hfold]

/-! ## Words of merged chunks -/

theorem draftWords_absorb {chunks : List ChunkDraft} {i : ℕ} {left right : ChunkDraft}
    (hleft : chunks[i]? = some left) (hright : chunks[i + 1]? = some right) :
    draftWords ((chunks.eraseIdx (i + 1)).set i (left.absorb right)) = draftWords chunks := by
  induction chunks generalizing i with
  | nil => cases hleft
  | cons chunk chunks ih =>
    cases i with
    | zero =>
      obtain rfl : chunk = left := by simpa using hleft
      rcases chunks with _ | ⟨chunk', chunks⟩
      · cases hright
      · obtain rfl : chunk' = right := by simpa using hright
        simp [ChunkDraft.absorb, words_joinChunks]
    | succ i =>
      rw [eraseIdx_cons_succ, set_cons_succ, draftWords_cons, draftWords_cons,
        ih (by simpa using hleft) (by simpa using hright)]

theorem draftWords_mergeSmallFrom (chunks : List ChunkDraft) (idx : ℕ) :
    draftWords (mergeSmallFrom chunks idx) = draftWords chunks := by
  fun_induction mergeSmallFrom chunks idx with
  | case1 | case5 | case6 => rfl
  | case2 _ _ _ _ _ ih => exact ih
  | case3 chunks idx chunk h _ next hnext ih => rw [ih, draftWords_absorb h hnext]
  | case4 chunks idx chunk h _ hnext hidx prev hprev ih =>
    obtain ⟨i, rfl⟩ := Nat.exists_eq_add_of_lt hidx
    rw [ih]
    exact draftWords_absorb (by simpa using hprev) (by simpa using h)

/-! ## The page -/

/-- The chunks have the words of the body without its headings, in order, and count up from zero. -/
theorem words_chunkPage (pageName : String) (body : List Char) :
    ((chunkPage pageName body).flatMap fun chunk => words isWhitespace chunk.content) =
        words isWhitespace (withoutHeadings body) ∧ (chunkPage pageName body).map Chunk.chunkIndex =
        List.range (chunkPage pageName body).length := by
  unfold chunkPage
  split_ifs with hblank
  · refine ⟨?_, rfl⟩
    have hbody := words_body body
    rw [words_eq_nil_of_strip (List.isEmpty_iff.1 hblank)] at hbody
    rw [words_withoutHeadings, flatMap_nil]
    refine (flatMap_eq_nil_iff.2 fun line hline => ?_).symm
    exact flatMap_eq_nil_iff.1 hbody.symm line (mem_of_mem_filter hline)
  · dsimp only
    generalize hdrafts : (splitSections body).flatMap splitOversizeSection = drafts
    have hwords : draftWords drafts = words isWhitespace (withoutHeadings body) := by
      rw [← hdrafts, ← draftWords_splitSections, draftWords, flatMap_assoc]
      exact flatMap_congr fun draft _ => draftWords_splitOversizeSection draft
    have hmerged : draftWords (if 1 < drafts.length then mergeSmallChunks drafts else drafts) =
        draftWords drafts := by
      unfold mergeSmallChunks
      split_ifs
      · rfl
      · exact draftWords_mergeSmallFrom drafts 0
      · rfl
    rw [← hwords, ← hmerged]
    generalize (if 1 < drafts.length then mergeSmallChunks drafts else drafts) = merged
    constructor
    · rw [flatMap_map, draftWords]
      conv_rhs => rw [← zipIdx_map_fst 0 merged]
      rw [flatMap_map]
    · rw [List.map_map, List.length_map, length_zipIdx, range_eq_range',
        ← zipIdx_map_snd 0 merged]
      rfl

end Gadgetron.Knowledge
