import Gadgetron.Web.Segments

/-!
# Live chat and history

The live stream reads the content of a message from a buffer to which every delta is added; history
reads the whole.
-/

namespace Gadgetron.Web

open Lib List

abbrev Symbol := Char ⊕ BufferedSegment

def BufferedSegment.outline : BufferedSegment → List Symbol
  | .text chars => chars.map .inl
  | segment => [.inr segment]

def outline (segments : List BufferedSegment) : List Symbol :=
  segments.flatMap BufferedSegment.outline

def reading (l : List Char) : List Symbol := outline (parseSegments l true).segments

theorem outline_append (segments segments' : List BufferedSegment) :
    outline (segments ++ segments') = outline segments ++ outline segments' :=
  flatMap_append

theorem outline_cons (s : BufferedSegment) (segments : List BufferedSegment) :
    outline (s :: segments) = s.outline ++ outline segments :=
  flatMap_cons

variable {s : BufferedSegment} {l l' : List Char}

theorem outline_marker (h : marker l = some (s, l')) : s.outline = [.inr s] := by
  rcases marker_eq_some.1 h with h | h | h | h
  · obtain ⟨text, after, -, -, rfl, -⟩ := matchThinking_eq_some.1 h
    rfl
  iterate 2
    · obtain ⟨output, -, rfl⟩ := matchResult_eq_some h
      rfl
  · obtain ⟨breaks, -, rest, -, hsign⟩ := matchTool_eq_some.1 h
    obtain ⟨name, input, after, -, -, -, -, rfl, -⟩ := matchToolSign_eq_some.1 hsign
    rfl

theorem reading_marker (h : marker l = some (s, l')) : reading l = .inr s :: reading l' := by
  unfold reading
  rw [parseSegments_marker h, outline_cons, outline_marker h]
  rfl

variable {l : List Char}

theorem reading_stuck (h : marker l = none) (hstart : startsMarker l = true) :
    reading l = [] := by
  unfold reading
  rw [parseSegments_stuck h hstart]
  rfl

variable {t r : List Char}

theorem reading_clear (h : Clear t r) : reading (t ++ r) = t.map .inl ++ reading r := by
  have hstarts : ∀ {t r : List Char}, Clear t r → startsMarker r = true →
      reading (t ++ r) = t.map .inl ++ reading r := by
    intro t r h hr
    by_cases ht : t = []
    · rw [ht]; rfl
    · unfold reading
      rw [parseSegments_text ht h hr, outline_cons]
      rfl
  have hlast : ∀ {t : List Char}, Clear t [] → reading t = t.map .inl := by
    intro t h
    by_cases ht : t = []
    · rw [ht]; rfl
    · unfold reading
      rw [parseSegments_last ht h]
      exact append_nil _
  rcases parse_cases r with rfl | ⟨s, r', hr⟩ | ⟨-, hr⟩ | ⟨t', r', rfl, -, h', hr⟩ | ⟨-, hr⟩
  · rw [append_nil, hlast h]
    exact (append_nil _).symm
  · exact hstarts h (startsMarker_of_marker hr)
  · exact hstarts h hr
  · rw [← List.append_assoc, hstarts (clear_append_iff.2 ⟨h, h'⟩) hr, hstarts h' hr,
      map_append, List.append_assoc]
  · have h' : Clear (t ++ r) [] := clear_append_iff.2 ⟨by rwa [append_nil], hr⟩
    rw [hlast h', hlast hr, map_append]

variable {c : Char}

theorem reading_cons {r : List Char} (h : startsMarker (c :: r) = false) :
    reading (c :: r) = .inl c :: reading r :=
  reading_clear (t := [c]) ⟨h, trivial⟩

/-! ## Readings that differ -/

def Symbol.isSpace : Symbol → Bool
  | .inl c => isJsSpace c
  | .inr _ => false

/-- Symbols other than whitespace are missing in `x`, or there is more whitespace than in `y`. -/
def Drifts (x y : List Symbol) : Prop :=
  x.countP (!Symbol.isSpace ·) < y.countP (!Symbol.isSpace ·) ∨
    x.countP (!Symbol.isSpace ·) = y.countP (!Symbol.isSpace ·) ∧
      y.countP Symbol.isSpace < x.countP Symbol.isSpace

section

variable {x y z : List Symbol}

theorem Drifts.ne (h : Drifts x y) : x ≠ y := by
  rintro rfl
  rcases h with h | ⟨-, h⟩
  · exact lt_irrefl _ h
  · exact lt_irrefl _ h

theorem Drifts.trans (h : Drifts x y) (h' : y = z ∨ Drifts y z) : Drifts x z := by
  rcases h' with rfl | h'
  · exact h
  · unfold Drifts at *
    omega

theorem Drifts.append (h : Drifts x y) (p : List Symbol) : Drifts (p ++ x) (p ++ y) := by
  unfold Drifts at *
  simp only [countP_append]
  omega

theorem drifts_space {c : Char} (h : isJsSpace c = true) (x : List Symbol) :
    Drifts (.inl c :: x) x := by
  refine .inr ⟨?_, ?_⟩
  · rw [countP_cons_of_neg]
    simp [Symbol.isSpace, h]
  · rw [countP_cons_of_pos]
    · exact Nat.lt_succ_self _
    · exact h

theorem drifts_nil {c : Char} (h : isJsSpace c = false) (x : List Symbol) :
    Drifts [] (.inl c :: x) := by
  refine .inl ?_
  rw [countP_nil, countP_cons_of_pos]
  · exact Nat.succ_pos _
  · simp [Symbol.isSpace, h]

end

/-! ## Whitespace in front of a tool call -/

/-- The start of a tool call that `findNextMarker` looks for. -/
def toolSign : List Char := ['🔧', ' ', '*', '*']

theorem reading_sign {b l : List Char} (hbreaks : b ∈ toolBreaks)
    (h : b ≠ [] ∨ toolSign <+: '🔧' :: l) : reading (b ++ '🔧' :: l) =
      match matchToolSign ('🔧' :: l) with
      | some (s, l') => .inr s :: reading l'
      | none => [] := by
  have hmarker : marker (b ++ '🔧' :: l) = matchToolSign ('🔧' :: l) := by
    rcases mem_toolBreaks.1 hbreaks with rfl | rfl | rfl <;> rfl
  cases hsign : matchToolSign ('🔧' :: l) with
  | some x => exact reading_marker (hmarker.trans hsign)
  | none =>
    refine reading_stuck (hmarker.trans hsign) ?_
    rcases mem_toolBreaks.1 hbreaks with rfl | rfl | rfl
    · obtain ⟨tail, htail⟩ := h.resolve_left fun hne => hne rfl
      rw [nil_append, ← htail]
      rfl
    · rfl
    · rfl

theorem startsMarker_eq_false_iff :
    startsMarker l = false ↔ ∀ m ∈ markerStarts, ¬ m <+: l := by
  simp [startsMarker]

theorem startsMarker_newline {r : List Char} (h : ¬ ['🔧'] <+: r) (h' : ¬ ['\n', '🔧'] <+: r) :
    startsMarker ('\n' :: r) = false := by
  simp [startsMarker_eq_false_iff, markerStarts, cons_prefix_cons, h, h']

theorem newline_cases (r : List Char) :
    ((toolSign <+: r ∨ ['\n', '🔧'] <+: r) ∧ reading ('\n' :: r) = reading r) ∨
      (¬ (toolSign <+: r ∨ ['\n', '🔧'] <+: r) ∧ Drifts (reading ('\n' :: r)) (reading r)) := by
  by_cases hsign : ['🔧'] <+: r
  · obtain ⟨l, rfl⟩ := hsign
    have hone := reading_sign (b := ['\n']) (l := l) (by decide) (.inl (by decide))
    by_cases htool : toolSign <+: '🔧' :: l
    · have hzero := reading_sign (b := []) (l := l) (by decide) (.inr htool)
      exact .inl ⟨.inl htool, hone.trans hzero.symm⟩
    · refine .inr ⟨?_, ?_⟩
      · rintro (h | h)
        · exact htool h
        · exact absurd (cons_prefix_cons.1 h).1 (by decide)
      · have hnone : matchToolSign ('🔧' :: l) = none := by
          rw [Option.eq_none_iff_forall_ne_some]
          rintro ⟨s, l'⟩ hx
          obtain ⟨name, input, after, heq, -⟩ := matchToolSign_eq_some.1 hx
          rw [heq] at htool
          simp only [List.append_assoc] at htool
          exact htool (prefix_append _ _)
        have hstart : startsMarker ('🔧' :: l) = false := by
          rw [toolSign, cons_prefix_cons] at htool
          simpa [startsMarker_eq_false_iff, markerStarts, cons_prefix_cons] using htool
        rw [hnone] at hone
        change Drifts (reading ('\n' :: '🔧' :: l)) (reading ('🔧' :: l))
        rw [show reading ('\n' :: '🔧' :: l) = [] from hone, reading_cons hstart]
        exact drifts_nil (by decide) _
  · by_cases hbreak : ['\n', '🔧'] <+: r
    · obtain ⟨l, rfl⟩ := hbreak
      have hone := reading_sign (b := ['\n']) (l := l) (by decide) (.inl (by decide))
      have htwo := reading_sign (b := ['\n', '\n']) (l := l) (by decide) (.inl (by decide))
      exact .inl ⟨.inr (prefix_append _ _), htwo.trans hone.symm⟩
    · refine .inr ⟨?_, ?_⟩
      · rintro (⟨tail, rfl⟩ | h)
        · exact hsign (prefix_append ['🔧'] _)
        · exact hbreak h
      · rw [reading_cons (startsMarker_newline hsign hbreak)]
        exact drifts_space (by decide) _

theorem startsMarker_space (hspace : isJsSpace c = true) (hc : c ≠ '\n')
    (r : List Char) : startsMarker (c :: r) = false := by
  have hne : ∀ d, isJsSpace d = false → d ≠ c := by
    rintro d hd rfl
    cases hd.symm.trans hspace
  simp [startsMarker_eq_false_iff, markerStarts, cons_prefix_cons, hne, isJsSpace, Ne.symm hc]

theorem space_cases (hspace : isJsSpace c = true) (r : List Char) :
    reading (c :: r) = reading r ∨ Drifts (reading (c :: r)) (reading r) := by
  by_cases hc : c = '\n'
  · subst hc
    exact (newline_cases r).imp And.right And.right
  · rw [reading_cons (startsMarker_space hspace hc r)]
    exact .inr (drifts_space hspace _)

theorem dropWhile_cases (l : List Char) : reading l = reading (l.dropWhile isJsSpace) ∨
    Drifts (reading l) (reading (l.dropWhile isJsSpace)) := by
  induction l with
  | nil => exact .inl rfl
  | cons c r ih =>
    rw [dropWhile_cons]
    split_ifs with hspace
    · rcases space_cases hspace r with h | h
      · rwa [h]
      · exact .inr (h.trans ih)
    · exact .inl rfl

def BreaksToSign (l : List Char) : Prop :=
  '\n' :: toolSign <+: l ∨ '\n' :: '\n' :: toolSign <+: l

theorem toolEnd_cases (l : List Char) :
    ((BreaksToSign l ∨ ∀ c r, l = c :: r → isJsSpace c = false) ∧
        reading l = reading (l.dropWhile isJsSpace)) ∨
      ((¬ BreaksToSign l ∧ ∃ c r, l = c :: r ∧ isJsSpace c = true) ∧
        Drifts (reading l) (reading (l.dropWhile isJsSpace))) := by
  rcases l with _ | ⟨c, r⟩
  · exact .inl ⟨.inr nofun, rfl⟩
  · by_cases hspace : isJsSpace c = true
    · rw [dropWhile_cons, if_pos hspace]
      by_cases hbreaks : BreaksToSign (c :: r)
      · refine .inl ⟨.inl hbreaks, ?_⟩
        rcases hbreaks with ⟨tail, h⟩ | ⟨tail, h⟩
        · obtain ⟨rfl, rfl⟩ := cons.inj h
          rcases newline_cases (toolSign ++ tail) with ⟨-, heq⟩ | ⟨hnot, -⟩
          · exact heq
          · exact absurd (.inl (prefix_append _ _)) hnot
        · obtain ⟨rfl, rfl⟩ := cons.inj h
          rcases newline_cases ('\n' :: (toolSign ++ tail)) with ⟨-, heq⟩ | ⟨hnot, -⟩
          · rcases newline_cases (toolSign ++ tail) with ⟨-, heq'⟩ | ⟨hnot, -⟩
            · exact heq.trans heq'
            · exact absurd (.inl (prefix_append _ _)) hnot
          · exact absurd (.inr ⟨_, rfl⟩) hnot
      · refine .inr ⟨⟨hbreaks, c, r, rfl, hspace⟩, ?_⟩
        by_cases hc : c = '\n'
        · subst hc
          rcases newline_cases r with ⟨hsign | ⟨l, rfl⟩, heq⟩ | ⟨-, hdrift⟩
          · exact absurd (.inl (cons_prefix_cons.2 ⟨rfl, hsign⟩)) hbreaks
          · rw [heq]
            rcases newline_cases ('🔧' :: l) with ⟨hsign | hbreak, -⟩ | ⟨-, hdrift⟩
            · refine absurd (.inr ?_) hbreaks
              exact cons_prefix_cons.2 ⟨rfl, cons_prefix_cons.2 ⟨rfl, hsign⟩⟩
            · exact absurd (cons_prefix_cons.1 hbreak).1 (by decide)
            · exact hdrift.trans (dropWhile_cases _)
          · exact hdrift.trans (dropWhile_cases r)
        · rw [reading_cons (startsMarker_space hspace hc r)]
          exact (drifts_space hspace _).trans (dropWhile_cases r)
    · rw [dropWhile_cons, if_neg hspace]
      refine .inl ⟨.inr fun d r' h => ?_, rfl⟩
      obtain ⟨rfl, -⟩ := cons.inj h
      exact Bool.eq_false_iff.2 hspace

/-! ## Places of a string -/

/-- The places at which the reading of a string looks for a marker. -/
inductive Reached : List Char → List Char → Prop
  | start (l : List Char) : Reached l l
  | marker {l l' x : List Char} {s : BufferedSegment} :
      marker l = some (s, l') → Reached l' x → Reached l x
  | text {t r x : List Char} :
      t ≠ [] → Clear t r → startsMarker r = true → Reached r x → Reached (t ++ r) x

theorem Clear.not_starts (h : Clear t r) (ht : t ≠ []) : startsMarker (t ++ r) = false := by
  obtain ⟨c, t, rfl⟩ := exists_cons_of_ne_nil ht
  exact h.1

theorem Reached.of_marker {l l' x : List Char} (h : Reached l x)
    (hmarker : Gadgetron.Web.marker l = some (s, l')) : x = l ∨ Reached l' x := by
  cases h with
  | start => exact .inl rfl
  | marker hmarker' hx =>
    rw [hmarker] at hmarker'
    cases hmarker'
    exact .inr hx
  | text ht hclear hr hx =>
    have hstart := startsMarker_of_marker hmarker
    rw [hclear.not_starts ht] at hstart
    cases hstart

theorem Reached.of_text {l t r x : List Char} (h : Reached l x) (hl : l = t ++ r) (ht : t ≠ [])
    (hclear : Clear t r) (hr : startsMarker r = true) : x = l ∨ Reached r x := by
  cases h with
  | start => exact .inl rfl
  | marker hmarker hx =>
    have hstart := startsMarker_of_marker hmarker
    rw [hl, hclear.not_starts ht] at hstart
    cases hstart
  | @text t' r' x ht' hclear' hr' hx =>
    have hlength : t'.length = t.length := by
      have hfirst := findNextMarker_append hclear' hr'
      rw [hl, findNextMarker_append hclear hr] at hfirst
      exact (Option.some.inj hfirst).symm
    obtain ⟨-, rfl⟩ := append_inj hl hlength
    exact .inr hx

theorem Reached.eq_of_none {l x : List Char} (h : Reached l x)
    (hnone : Gadgetron.Web.marker l = none)
    (hnext : ∀ t r, l = t ++ r → t ≠ [] → Clear t r → startsMarker r = false) : x = l := by
  cases h with
  | start => rfl
  | marker hmarker hx =>
    rw [hnone] at hmarker
    cases hmarker
  | text ht hclear hr hx =>
    rw [hnext _ _ rfl ht hclear] at hr
    cases hr

/-! ## Flushes that cut -/

section

variable (u rest : List Char)

/-- The buffer ends with the closing mark of a thinking, and a line break follows that no tool call
takes. -/
def ThinkingCut : Prop :=
  (∃ t, '_' ∉ t ∧ Reached u (['>', ' ', '💭', ' ', '_'] ++ t ++ ['_'])) ∧
    ∃ r, rest = '\n' :: r ∧ ¬ (toolSign <+: r ∨ ['\n', '🔧'] <+: r)

/-- The buffer ends with a tool call, and whitespace follows that is not just what the next tool
call takes. -/
def ToolCut : Prop :=
  (∃ x s, Reached u x ∧ matchTool x = some (s, [])) ∧
    ¬ BreaksToSign rest ∧ ∃ c r, rest = c :: r ∧ isJsSpace c = true

/-- The buffer ends with a text and two line breaks, and the sign of a tool call follows. -/
def BreakCut : Prop :=
  (∃ t, Reached u (t ++ ['\n', '\n']) ∧ Clear (t ++ ['\n', '\n']) []) ∧ ['🔧'] <+: rest

/-- A flush of `u` is too early for what follows. -/
def Cut : Prop := ThinkingCut u rest ∨ ToolCut u rest ∨ BreakCut u rest

end

def CutEnd (x : List Char) : Prop :=
  (∃ s, marker x = some (s, [])) ∨ x ≠ [] ∧ Clear x []

theorem marker_thinking {t : List Char} (ht : '_' ∉ t) :
    marker (['>', ' ', '💭', ' ', '_'] ++ t ++ ['_']) = some (.thinking t, []) :=
  marker_eq_some.2 (.inl (matchThinking_eq_some.2 ⟨t, [], rfl, ht, rfl, rfl⟩))

theorem cut_congr {u u' rest : List Char}
    (h : ∀ x, CutEnd x → (Reached u x ↔ Reached u' x)) : Cut u rest ↔ Cut u' rest := by
  unfold Cut ThinkingCut ToolCut BreakCut
  refine or_congr (and_congr_left fun _ => exists_congr fun t => and_congr_right fun ht => ?_)
    (or_congr (and_congr_left fun _ => exists_congr fun x => exists_congr fun s =>
      and_congr_left fun hx => ?_)
      (and_congr_left fun _ => exists_congr fun t => and_congr_left fun ht => ?_))
  · exact h _ (.inl ⟨_, marker_thinking ht⟩)
  · exact h x (.inl ⟨s, marker_eq_some.2 (.inr (.inr (.inr hx)))⟩)
  · exact h _ (.inr ⟨by simp, ht⟩)

theorem not_cut {u rest : List Char} (h : ∀ x, CutEnd x → ¬ Reached u x) : ¬ Cut u rest := by
  rintro (⟨⟨t, ht, hx⟩, -⟩ | ⟨⟨x, s, hx, hmatch⟩, -⟩ | ⟨⟨t, hx, hclear⟩, -⟩)
  · exact h _ (.inl ⟨_, marker_thinking ht⟩) hx
  · exact h x (.inl ⟨s, marker_eq_some.2 (.inr (.inr (.inr hmatch)))⟩) hx
  · exact h _ (.inr ⟨by simp, hclear⟩) hx

theorem Clear.starts_nil (h : Clear l []) : startsMarker l = false := by
  rcases l with _ | ⟨c, l⟩
  · rfl
  · rw [← append_nil (c :: l)]
    exact h.1

theorem not_cut_nil (rest : List Char) : ¬ Cut [] rest := by
  refine not_cut fun x hend hx => ?_
  obtain rfl : x = [] :=
    hx.eq_of_none rfl fun t r htr ht => absurd (append_eq_nil_iff.1 htr.symm).1 ht
  rcases hend with ⟨s, hs⟩ | ⟨hne, -⟩
  · cases hs
  · exact hne rfl

variable {u : List Char}

theorem not_cut_stuck (hnone : marker u = none) (hstart : startsMarker u = true)
    (rest : List Char) : ¬ Cut u rest := by
  refine not_cut fun x hend hx => ?_
  obtain rfl : x = u := hx.eq_of_none hnone fun t r htr ht hclear => by
    rw [htr, hclear.not_starts ht] at hstart
    cases hstart
  rcases hend with ⟨s, hs⟩ | ⟨-, hclear⟩
  · rw [hnone] at hs
    cases hs
  · rw [hclear.starts_nil] at hstart
    cases hstart

theorem cut_marker {u u' : List Char} (hmarker : marker u = some (s, u'))
    (hu' : u' ≠ []) (rest : List Char) : Cut u rest ↔ Cut u' rest := by
  refine cut_congr fun x hend => ⟨fun hx => ?_, fun hx => .marker hmarker hx⟩
  rcases hx.of_marker hmarker with rfl | hx
  · rcases hend with ⟨s', hs'⟩ | ⟨-, hclear⟩
    · rw [hmarker] at hs'
      cases hs'
      exact absurd rfl hu'
    · have hstart := startsMarker_of_marker hmarker
      rw [hclear.starts_nil] at hstart
      cases hstart
  · exact hx

theorem cut_text (ht : t ≠ []) (hclear : Clear t r)
    (hr : startsMarker r = true) (rest : List Char) : Cut (t ++ r) rest ↔ Cut r rest := by
  refine cut_congr fun x hend => ⟨fun hx => ?_, fun hx => .text ht hclear hr hx⟩
  rcases hx.of_text rfl ht hclear hr with rfl | hx
  · rcases hend with ⟨s, hs⟩ | ⟨-, hclear'⟩
    · have hstart := startsMarker_of_marker hs
      rw [hclear.not_starts ht] at hstart
      cases hstart
    · rw [(clear_append_iff.1 hclear').2.starts_nil] at hr
      cases hr
  · exact hx

/-! ### More text behind a buffer -/

theorem exists_start_of_longer {x rest : List Char} (h : startsMarker (x ++ rest) = true)
    (hx : startsMarker x = false) :
    ∃ m ∈ markerStarts, x = m.take x.length ∧ x.length < m.length ∧ m <+: x ++ rest := by
  obtain ⟨m, hm, hpre⟩ := List.any_eq_true.1 h
  rw [ isPrefixOf_iff_prefix] at hpre
  have hshort : x.length < m.length := by
    by_contra hlong
    have hshorter : m <+: x := prefix_of_prefix_length_le hpre (prefix_append x rest)
      (Nat.le_of_not_lt hlong)
    rw [Bool.eq_false_iff] at hx
    exact hx (List.any_eq_true.2 ⟨m, hm, isPrefixOf_iff_prefix.2 hshorter⟩)
  have hxm : x <+: m := prefix_of_prefix_length_le (prefix_append x rest) hpre hshort.le
  exact ⟨m, hm, prefix_iff_eq_take.1 hxm, hshort, hpre⟩

theorem starts_apart : ∀ m ∈ markerStarts, ∀ k ∈ List.range m.length, ∀ j ∈ List.range k,
    startsMarker ((m.take k).drop (j + 1)) = false := by
  decide

theorem Clear.more (h : Clear t r) (hr : startsMarker r = true)
    (rest : List Char) : Clear t (r ++ rest) := by
  induction t with
  | nil => trivial
  | cons c t ih =>
    refine ⟨?_, ih h.2⟩
    rw [Bool.eq_false_iff]
    intro hstart
    rw [← List.append_assoc, ← cons_append] at hstart
    obtain ⟨m, hm, htake, hshort, -⟩ := exists_start_of_longer hstart h.1
    have happart := starts_apart m hm _ (mem_range.2 hshort) t.length (by
      rw [mem_range, length_cons, List.length_append]
      omega)
    rw [← htake, drop_succ_cons, drop_left, hr] at happart
    cases happart

theorem tail_cases (hu : Clear u []) (rest : List Char) :
    ∃ t left, u = t ++ left ∧ findSafeTextTail u = t.length ∧ (left = [] ∨ startsTail left) ∧
      (Clear t (left ++ rest) ∨ ∃ t', t = t' ++ ['\n'] ∧ left = ['\n'] ∧ ['🔧'] <+: rest ∧
        Clear t' ('\n' :: '\n' :: rest)) := by
  induction u with
  | nil => exact ⟨[], [], rfl, rfl, .inl rfl, .inl trivial⟩
  | cons c u ih =>
    rw [findSafeTextTail]
    split_ifs with htail
    · exact ⟨[], c :: u, rfl, rfl, .inr htail, .inl trivial⟩
    · obtain ⟨t, left, hsplit, hsafe, hstarts, hclear⟩ := ih hu.2
      have hstart : startsMarker (c :: u) = false := by
        have := hu.1
        rwa [append_nil] at this
      rcases hclear with hclear | ⟨t', rfl, rfl, hsign, hclear⟩
      · cases hlong : startsMarker (c :: (u ++ rest)) with
        | false =>
          refine ⟨c :: t, left, congrArg (c :: ·) hsplit, by rw [hsafe, length_cons],
            hstarts, .inl ⟨?_, hclear⟩⟩
          rwa [← List.append_assoc, ← hsplit]
        | true =>
          obtain ⟨m, hm, htake, hshort, hpre⟩ := exists_start_of_longer hlong hstart
          have hnot : m ∉ tailStarts := by
            intro hmem
            refine htail (List.any_eq_true.2 ⟨m, hmem, ?_⟩)
            rw [Bool.and_eq_true, isPrefixOf_iff_prefix, decide_eq_true_eq]
            exact ⟨prefix_iff_eq_take.2 htake, hshort⟩
          have hm' : m = ['\n', '\n', '🔧'] := by
            simp only [markerStarts, tailStarts, mem_cons, not_mem_nil, or_false] at hm hnot
            tauto
          subst hm'
          rcases u with _ | ⟨d, _ | ⟨e, u⟩⟩
          · obtain rfl : c = '\n' := by simpa using htake
            exact absurd (by decide) htail
          · obtain ⟨rfl, rfl⟩ : c = '\n' ∧ d = '\n' := by simpa using htake
            obtain rfl : t = [] := eq_nil_of_length_eq_zero hsafe.symm
            obtain rfl : left = ['\n'] := hsplit.symm
            have hsign := (cons_prefix_cons.1 (cons_prefix_cons.1 hpre).2).2
            exact ⟨['\n'], ['\n'], rfl, rfl, hstarts, .inr ⟨[], rfl, rfl, hsign, trivial⟩⟩
          · simp only [length_cons, length_nil] at hshort
            omega
      · refine ⟨c :: (t' ++ ['\n']), ['\n'], congrArg (c :: ·) hsplit,
          by rw [hsafe, length_cons], hstarts, .inr ⟨c :: t', rfl, rfl, hsign, ?_, hclear⟩⟩
        rw [Bool.eq_false_iff]
        intro hlong
        have hrest : c :: (t' ++ '\n' :: '\n' :: rest) = (c :: u) ++ rest := by
          rw [hsplit]
          simp
        rw [hrest] at hlong
        obtain ⟨m, hm, htake, hshort, -⟩ := exists_start_of_longer hlong hstart
        have hlength : (c :: u).length = t'.length + 3 := by
          rw [hsplit]
          simp
        have hlast : (m.take (t'.length + 3)).getLast? = some '\n' := by
          rw [← hlength, ← htake, hsplit]
          exact getLast?_concat (l := c :: (t' ++ ['\n']))
        rw [hlength] at hshort
        simp only [markerStarts, mem_cons, not_mem_nil, or_false] at hm
        rcases hm with rfl | rfl | rfl | rfl | rfl | rfl
        all_goals simp only [length_cons, length_nil] at hshort
        all_goals
          first
            | omega
            | obtain hzero : t'.length = 0 := by omega
              rw [hzero] at hlast
              exact absurd hlast (by decide)

/-! ## One flush -/

theorem ne_text_of_marker (h : marker l = some (s, l')) : ∀ t, s ≠ .text t := by
  rintro t rfl
  have houtline := outline_marker h
  rcases t with _ | ⟨c, t⟩
  · cases houtline
  · exact absurd (cons.inj houtline).1 nofun

/-- What a flush of the buffer `u` takes. -/
abbrev flushed (u : List Char) : Parsed := parseSegments u false

theorem cut_end_iff (h : marker u = some (s, []))
    (rest : List Char) : Cut u rest ↔ (∃ t, '_' ∉ t ∧ u = ['>', ' ', '💭', ' ', '_'] ++ t ++ ['_']) ∧
          (∃ r, rest = '\n' :: r ∧ ¬ (toolSign <+: r ∨ ['\n', '🔧'] <+: r)) ∨
        (∃ name input, s = .toolUse name input) ∧
          ¬ BreaksToSign rest ∧ ∃ c r, rest = c :: r ∧ isJsSpace c = true := by
  have hreached : ∀ x, CutEnd x → Reached u x → x = u := by
    intro x hend hx
    rcases hx.of_marker h with rfl | hx
    · rfl
    · obtain rfl : x = [] :=
        hx.eq_of_none rfl fun t r htr ht => absurd (append_eq_nil_iff.1 htr.symm).1 ht
      rcases hend with ⟨s', hs'⟩ | ⟨hne, -⟩
      · cases hs'
      · exact absurd rfl hne
  constructor
  · rintro (⟨⟨t, ht, hx⟩, hrest⟩ | ⟨⟨x, s', hx, hmatch⟩, hrest⟩ | ⟨⟨t, hx, hclear⟩, -⟩)
    · exact .inl ⟨⟨t, ht, (hreached _ (.inl ⟨_, marker_thinking ht⟩) hx).symm⟩, hrest⟩
    · have hmarker := marker_eq_some.2 (.inr (.inr (.inr hmatch)))
      obtain rfl := hreached x (.inl ⟨s', hmarker⟩) hx
      rw [h] at hmarker
      cases hmarker
      obtain ⟨breaks, -, l, -, hsign⟩ := matchTool_eq_some.1 hmatch
      obtain ⟨name, input, after, -, -, -, -, rfl, -⟩ := matchToolSign_eq_some.1 hsign
      exact .inr ⟨⟨name, input, rfl⟩, hrest⟩
    · obtain heq := hreached _ (.inr ⟨by simp, hclear⟩) hx
      have hstart := startsMarker_of_marker h
      rw [← heq, hclear.starts_nil] at hstart
      cases hstart
  · rintro (⟨⟨t, ht, rfl⟩, hrest⟩ | ⟨⟨name, input, rfl⟩, hrest⟩)
    · exact .inl ⟨⟨t, ht, .start _⟩, hrest⟩
    · refine .inr (.inl ⟨⟨u, .toolUse name input, .start u, ?_⟩, hrest⟩)
      rcases marker_eq_some.1 h with h | h | h | h
      · obtain ⟨t, after, -, -, hs, -⟩ := matchThinking_eq_some.1 h
        cases hs
      iterate 2
        · obtain ⟨output, -, hs⟩ := matchResult_eq_some h
          cases hs
      · exact h

theorem getLast?_thinking {u t : List Char} (h : marker u = some (.thinking t, [])) :
    u.getLast? = some '_' ↔ ∃ t, '_' ∉ t ∧ u = ['>', ' ', '💭', ' ', '_'] ++ t ++ ['_'] := by
  constructor
  · intro hlast
    rcases marker_eq_some.1 h with h | h | h | h
    · obtain ⟨t', after, rfl, ht', -, hafter⟩ := matchThinking_eq_some.1 h
      rcases after with _ | ⟨c, after⟩
      · exact ⟨t', ht', rfl⟩
      · unfold dropNewline at hafter
        split at hafter
        · rename_i heq
          obtain ⟨rfl, rfl⟩ := cons.inj heq
          subst hafter
          rw [getLast?_append_of_ne_nil _ (cons_ne_nil _ _)] at hlast
          exact absurd hlast (by decide)
        · cases hafter
    iterate 2
      · obtain ⟨output, -, hs⟩ := matchResult_eq_some h
        cases hs
    · obtain ⟨breaks, -, l, -, hsign⟩ := matchTool_eq_some.1 h
      obtain ⟨name, input, after, -, -, -, -, hs, -⟩ := matchToolSign_eq_some.1 hsign
      cases hs
  · rintro ⟨t', -, rfl⟩
    exact getLast?_concat

theorem flush_end (h : marker u = some (s, []))
    (rest : List Char) : (¬ Cut u rest ∧ reading rest = reading (resume s u [] rest)) ∨
      (Cut u rest ∧ Drifts (reading rest) (reading (resume s u [] rest))) := by
  cases s with
  | text t => exact absurd rfl (ne_text_of_marker h t)
  | toolResult success output =>
    refine .inl ⟨?_, rfl⟩
    rw [cut_end_iff h]
    rintro (⟨⟨t, ht, rfl⟩, -⟩ | ⟨⟨name, input, hs⟩, -⟩)
    · rw [marker_thinking ht] at h
      cases h
    · cases hs
  | thinking t =>
    have hcut : Cut u rest ↔ u.getLast? = some '_' ∧
        ∃ r, rest = '\n' :: r ∧ ¬ (toolSign <+: r ∨ ['\n', '🔧'] <+: r) := by
      rw [cut_end_iff h, getLast?_thinking h]
      refine or_iff_left ?_
      rintro ⟨⟨name, input, hs⟩, -⟩
      cases hs
    rw [hcut]
    change (_ ∧ _ = reading (if u.getLast? = some '_' then dropNewline rest else rest)) ∨
      (_ ∧ Drifts _ (reading (if u.getLast? = some '_' then dropNewline rest else rest)))
    split_ifs with hlast
    · by_cases hbreak : ∃ r, rest = '\n' :: r
      · obtain ⟨r, rfl⟩ := hbreak
        rcases newline_cases r with ⟨hkeeps, heq⟩ | ⟨hnot, hdrift⟩
        · refine .inl ⟨?_, heq⟩
          rintro ⟨-, r', hr', hnot⟩
          cases hr'
          exact hnot hkeeps
        · exact .inr ⟨⟨hlast, r, rfl, hnot⟩, hdrift⟩
      · have hkeep : dropNewline rest = rest := by
          unfold dropNewline
          split
          · exact absurd ⟨_, rfl⟩ hbreak
          · rfl
        rw [hkeep]
        exact .inl ⟨fun ⟨_, r, hr, _⟩ => hbreak ⟨r, hr⟩, rfl⟩
    · exact .inl ⟨fun ⟨hlast', _⟩ => hlast hlast', rfl⟩
  | toolUse name input =>
    have hcut : Cut u rest ↔ ¬ BreaksToSign rest ∧ ∃ c r, rest = c :: r ∧ isJsSpace c = true := by
      rw [cut_end_iff h, or_iff_right, and_iff_right ⟨name, input, rfl⟩]
      rintro ⟨⟨t, ht, rfl⟩, -⟩
      rw [marker_thinking ht] at h
      cases h
    rw [hcut]
    rcases toolEnd_cases rest with ⟨hkeeps, heq⟩ | ⟨hcuts, hdrift⟩
    · refine .inl ⟨?_, heq⟩
      rintro ⟨hbreaks, c, r, rfl, hspace⟩
      rcases hkeeps with hkeeps | hkeeps
      · exact hbreaks hkeeps
      · rw [hkeeps c r rfl] at hspace
        cases hspace
    · exact .inr ⟨hcuts, hdrift⟩

theorem startsTail_newline : ∀ m ∈ tailStarts, ∀ k ∈ List.range m.length,
    (m.take k).getLast? = some '\n' → m.take k = ['\n'] := by
  decide

theorem cut_tail_iff (hne : u ≠ []) (hclear : Clear u []) (rest : List Char) :
    Cut u rest ↔ (∃ t, u = t ++ ['\n', '\n']) ∧ ['🔧'] <+: rest := by
  have hreached : ∀ x, Reached u x → x = u := by
    intro x hx
    refine hx.eq_of_none (marker_eq_none hclear.starts_nil) ?_
    rintro t r rfl - -
    exact (clear_append_iff.1 hclear).2.starts_nil
  constructor
  · rintro (⟨⟨t, ht, hx⟩, -⟩ | ⟨⟨x, s, hx, hmatch⟩, -⟩ | ⟨⟨t, hx, -⟩, hsign⟩)
    · have hstart := startsMarker_of_marker (marker_thinking ht)
      rw [hreached _ hx, hclear.starts_nil] at hstart
      cases hstart
    · have hstart := startsMarker_of_marker (marker_eq_some.2 (.inr (.inr (.inr hmatch))))
      rw [hreached x hx, hclear.starts_nil] at hstart
      cases hstart
    · exact ⟨⟨t, (hreached _ hx).symm⟩, hsign⟩
  · rintro ⟨⟨t, rfl⟩, hsign⟩
    exact .inr (.inr ⟨⟨t, .start _, hclear⟩, hsign⟩)

theorem flush_tail (hne : u ≠ []) (hclear : Clear u []) (rest : List Char) : (¬ Cut u rest ∧
        outline (flushed u).segments ++ reading ((flushed u).left ++ rest) = reading (u ++ rest)) ∨
      (Cut u rest ∧ Drifts (outline (flushed u).segments ++ reading ((flushed u).left ++ rest))
        (reading (u ++ rest))) := by
  obtain ⟨t, left, hsplit, hsafe, hleft, hcases⟩ := tail_cases hclear rest
  have hflush : flushed u = ⟨if 0 < t.length then [.text t] else [], left⟩ := by
    have hparse := parseSegments_tail hne hclear
    rw [hsafe, hsplit, take_left, drop_left] at hparse
    rw [flushed, hsplit]
    exact hparse
  have houtline : outline (flushed u).segments = t.map .inl := by
    rw [hflush]
    dsimp only
    split_ifs with hpos
    · exact append_nil _
    · rw [eq_nil_of_length_eq_zero (Nat.eq_zero_of_not_pos hpos)]
      rfl
  rw [houtline, hflush, cut_tail_iff hne hclear]
  dsimp only
  rcases hcases with hclear' | ⟨t', rfl, rfl, hsign, hclear'⟩
  · refine .inl ⟨?_, by rw [hsplit, List.append_assoc, reading_clear hclear']⟩
    rintro ⟨⟨t', ht'⟩, ⟨tail, rfl⟩⟩
    -- what the flush leaves is a line break at most
    have hshort : ∃ t'', t = t' ++ '\n' :: t'' ∧ t'' ++ left = ['\n'] := by
      by_cases hnil : left = []
      · rw [hnil, append_nil] at hsplit
        refine ⟨['\n'], ?_, by rw [hnil]; rfl⟩
        rw [← hsplit, ht']
      · have hlast : left.getLast? = some '\n' := by
          rw [← getLast?_append_of_ne_nil t hnil, ← hsplit, ht']
          simp
        obtain ⟨m, hm, hstarts⟩ := List.any_eq_true.1 (hleft.resolve_left hnil)
        rw [Bool.and_eq_true, isPrefixOf_iff_prefix, decide_eq_true_eq] at hstarts
        rw [prefix_iff_eq_take.1 hstarts.1] at hlast
        have hone := startsTail_newline m hm _ (mem_range.2 hstarts.2) hlast
        rw [← prefix_iff_eq_take.1 hstarts.1] at hone
        refine ⟨[], ?_, hone⟩
        have hsame : t ++ ['\n'] = (t' ++ ['\n']) ++ ['\n'] := by
          rw [← hone, ← hsplit, ht', hone, List.append_assoc]
          rfl
        exact append_cancel_right hsame
    obtain ⟨t'', rfl, hone⟩ := hshort
    have hstart := (clear_append_iff.1 hclear').2.1
    rw [← List.append_assoc, hone] at hstart
    exact absurd hstart (by simp [startsMarker, markerStarts])
  · obtain ⟨tail, rfl⟩ := hsign
    have hone := reading_sign (b := ['\n']) (l := tail) (by decide) (.inl (by decide))
    have htwo := reading_sign (b := ['\n', '\n']) (l := tail) (by decide) (.inl (by decide))
    refine .inr ⟨⟨⟨t', by rw [hsplit, List.append_assoc]; rfl⟩, prefix_append _ _⟩, ?_⟩
    have hall : reading (u ++ (['🔧'] ++ tail)) =
        t'.map .inl ++ reading (['\n', '\n'] ++ '🔧' :: tail) := by
      rw [hsplit]
      simp only [List.append_assoc]
      exact reading_clear hclear'
    rw [hall, map_append, List.append_assoc, htwo, ← hone]
    refine Drifts.append ?_ _
    exact drifts_space (by decide) _

/-- What a flush takes, read in front of what is left with the rest, is what is read of all, unless
the flush cuts; then the readings differ. -/
theorem flush_cases (u rest : List Char) : (¬ Cut u rest ∧
        outline (flushed u).segments ++ reading ((flushed u).left ++ rest) = reading (u ++ rest)) ∨
      (Cut u rest ∧ Drifts (outline (flushed u).segments ++ reading ((flushed u).left ++ rest))
        (reading (u ++ rest))) := by
  induction hn : u.length using Nat.strongRecOn generalizing u with
  | ind n ih =>
    rcases parse_cases u with rfl | ⟨s, u', hmarker⟩ | ⟨hnone, hstart⟩ |
      ⟨t, r, rfl, ht, hclear, hr⟩ | ⟨hne, hclear⟩
    · exact .inl ⟨not_cut_nil rest, rfl⟩
    · have hflush : flushed u = ⟨s :: (flushed u').segments, (flushed u').left⟩ :=
        parseSegments_marker hmarker
      have hall : reading (u ++ rest) = [.inr s] ++ reading (resume s u u' rest) :=
        reading_marker (marker_append hmarker rest)
      have hfirst : outline (flushed u).segments ++ reading ((flushed u).left ++ rest) =
          [.inr s] ++ (outline (flushed u').segments ++ reading ((flushed u').left ++ rest)) := by
        rw [hflush, outline_cons, outline_marker hmarker, List.append_assoc]
      rw [hall, hfirst]
      have hlater : (¬ Cut u rest ∧
          outline (flushed u').segments ++ reading ((flushed u').left ++ rest) =
            reading (resume s u u' rest)) ∨ (Cut u rest ∧
            Drifts (outline (flushed u').segments ++ reading ((flushed u').left ++ rest))
              (reading (resume s u u' rest))) := by
        by_cases hu' : u' = []
        · subst hu'
          exact flush_end hmarker rest
        · rw [show resume s u u' rest = u' ++ rest from if_pos hu', cut_marker hmarker hu' rest]
          exact ih u'.length (hn ▸ length_marker hmarker) u' rfl
      refine hlater.imp ?_ ?_
      · exact fun ⟨hcut, heq⟩ => ⟨hcut, congrArg (_ ++ ·) heq⟩
      · exact fun ⟨hcut, hdrift⟩ => ⟨hcut, hdrift.append _⟩
    · have hflush : flushed u = ⟨[], u⟩ := parseSegments_stuck hnone hstart
      refine .inl ⟨not_cut_stuck hnone hstart rest, ?_⟩
      rw [hflush]
      rfl
    · have hflush : flushed (t ++ r) = ⟨.text t :: (flushed r).segments, (flushed r).left⟩ :=
        parseSegments_text ht hclear hr
      have hall : reading (t ++ r ++ rest) = t.map .inl ++ reading (r ++ rest) := by
        rw [List.append_assoc]
        exact reading_clear (hclear.more hr rest)
      have hfirst : outline (flushed (t ++ r)).segments ++
          reading ((flushed (t ++ r)).left ++ rest) =
            t.map .inl ++ (outline (flushed r).segments ++ reading ((flushed r).left ++ rest)) := by
        rw [hflush, outline_cons, List.append_assoc]
        rfl
      rw [hall, hfirst, cut_text ht hclear hr]
      have hshort : r.length < n := by
        rw [← hn, List.length_append]
        exact Nat.lt_add_of_pos_left (length_pos_iff.2 ht)
      refine (ih r.length hshort r rfl).imp ?_ ?_
      · exact fun ⟨hcut, heq⟩ => ⟨hcut, congrArg (_ ++ ·) heq⟩
      · exact fun ⟨hcut, hdrift⟩ => ⟨hcut, hdrift.append _⟩
    · exact flush_tail hne hclear rest

/-! ## The whole stream -/

/-- The segments that `processResponseStream` emits: a flush after every delta that is not empty,
and a last one. -/
def liveSegments (contentBuffer : List Char) : List (List Char) → List BufferedSegment
  | [] => (parseSegments contentBuffer true).segments
  | delta :: deltas =>
    if delta = [] then
      liveSegments contentBuffer deltas
    else
      let parsed := parseSegments (contentBuffer ++ delta) false
      parsed.segments ++ liveSegments parsed.left deltas

/-- No flush is too early for what follows. -/
def NoCut (contentBuffer : List Char) : List (List Char) → Prop
  | [] => True
  | delta :: deltas =>
    if delta = [] then
      NoCut contentBuffer deltas
    else
      ¬ Cut (contentBuffer ++ delta) deltas.flatten ∧
        NoCut (parseSegments (contentBuffer ++ delta) false).left deltas

theorem live_cases (contentBuffer : List Char) (deltas : List (List Char)) :
    (NoCut contentBuffer deltas ∧
        outline (liveSegments contentBuffer deltas) = reading (contentBuffer ++ deltas.flatten)) ∨
      (¬ NoCut contentBuffer deltas ∧ Drifts (outline (liveSegments contentBuffer deltas))
        (reading (contentBuffer ++ deltas.flatten))) := by
  induction deltas generalizing contentBuffer with
  | nil =>
    refine .inl ⟨trivial, ?_⟩
    rw [flatten_nil, append_nil]
    rfl
  | cons delta deltas ih =>
    rw [liveSegments, NoCut, flatten_cons]
    split_ifs with hdelta
    · rw [hdelta, nil_append]
      exact ih contentBuffer
    · rw [outline_append, ← List.append_assoc]
      set u := contentBuffer ++ delta
      rcases flush_cases u deltas.flatten with ⟨hcut, heq⟩ | ⟨hcut, hdrift⟩
      · rw [← heq]
        rcases ih (flushed u).left with ⟨hrest, hsame⟩ | ⟨hrest, hdrift⟩
        · exact .inl ⟨⟨hcut, hrest⟩, congrArg (_ ++ ·) hsame⟩
        · exact .inr ⟨fun h => hrest h.2, hdrift.append _⟩
      · refine .inr ⟨fun h => h.1 hcut, ?_⟩
        rcases ih (flushed u).left with ⟨-, hsame⟩ | ⟨-, hrest⟩
        · rw [hsame]
          exact hdrift
        · exact (hrest.append _).trans (.inr hdrift)

/-! ## What is consumed -/

/-- Every marker that parsing comes to is closed. -/
def MarkersClosed (l : List Char) : Prop :=
  ∀ x, Reached l x → startsMarker x = true → (marker x).isSome

theorem consumed_iff (l : List Char) : (parseSegments l true).left = [] ↔ MarkersClosed l := by
  induction hn : l.length using Nat.strongRecOn generalizing l with
  | ind n ih =>
    rcases parse_cases l with rfl | ⟨s, l', hmarker⟩ | ⟨hnone, hstart⟩ |
      ⟨t, r, rfl, ht, hclear, hr⟩ | ⟨hne, hclear⟩
    · refine iff_of_true rfl fun x hx hstart => ?_
      rw [hx.eq_of_none rfl fun t r htr ht => absurd (append_eq_nil_iff.1 htr.symm).1 ht]
        at hstart
      cases hstart
    · rw [parseSegments_marker hmarker, ih l'.length (hn ▸ length_marker hmarker) l' rfl]
      refine ⟨fun h x hx hstart => ?_, fun h x hx => h x (.marker hmarker hx)⟩
      rcases hx.of_marker hmarker with rfl | hx
      · rw [hmarker]
        rfl
      · exact h x hx hstart
    · rw [parseSegments_stuck hnone hstart]
      refine iff_of_false ?_ fun h => ?_
      · rintro rfl
        cases hstart
      · have := h l (.start l) hstart
        rw [hnone] at this
        cases this
    · rw [parseSegments_text ht hclear hr, ih r.length ?_ r rfl]
      · refine ⟨fun h x hx hstart => ?_, fun h x hx => h x (.text ht hclear hr hx)⟩
        rcases hx.of_text rfl ht hclear hr with rfl | hx
        · rw [hclear.not_starts ht] at hstart
          cases hstart
        · exact h x hx hstart
      · rw [← hn, List.length_append]
        exact Nat.lt_add_of_pos_left (length_pos_iff.2 ht)
    · rw [parseSegments_last hne hclear]
      refine iff_of_true rfl fun x hx hstart => ?_
      have hnot : startsMarker l = false := by
        rw [← append_nil l]
        exact hclear.not_starts hne
      have hfalse : ∀ t r, l = t ++ r → t ≠ [] → Clear t r → startsMarker r = false := by
        rintro t r rfl - -
        have hclear' := (clear_append_iff.1 hclear).2
        rcases r with _ | ⟨c, r⟩
        · rfl
        · rw [← append_nil (c :: r)]
          exact hclear'.not_starts (cons_ne_nil _ _)
      rw [hx.eq_of_none (marker_eq_none hnot) hfalse, hnot] at hstart
      cases hstart

/-- The live stream shows what history shows and no character is dropped just when no flush cuts and
what starts like a marker is one. -/
theorem live_eq_history_iff (deltas : List (List Char)) :
    (outline (liveSegments [] deltas) = outline (parseSegments deltas.flatten true).segments ∧
        (parseSegments deltas.flatten true).consumed deltas.flatten = deltas.flatten.length) ↔
      NoCut [] deltas ∧ MarkersClosed deltas.flatten := by
  refine and_congr ?_ ?_
  · rcases live_cases [] deltas with ⟨hno, heq⟩ | ⟨hcut, hdrift⟩
    · exact iff_of_true heq hno
    · exact iff_of_false hdrift.ne hcut
  · rw [← consumed_iff, ← List.length_eq_zero_iff]
    unfold Parsed.consumed
    rcases deltas.flatten with _ | ⟨c, l⟩
    · exact iff_of_true rfl rfl
    · rw [length_cons]
      omega

/-! ## Two deltas that cut -/

def sampleDeltas : List (List Char) := ["a\n\n".toList, "🔧 **t** \x60i\x60".toList]

theorem sample_cut_and_dropped : outline (liveSegments [] sampleDeltas) ≠
        outline (parseSegments sampleDeltas.flatten true).segments ∧
      (parseSegments "🔧 **t".toList true).consumed "🔧 **t".toList ≠ "🔧 **t".toList.length := by
  decide

end Gadgetron.Web
