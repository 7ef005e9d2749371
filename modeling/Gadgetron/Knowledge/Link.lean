import Gadgetron.Lib.Boundary
import Gadgetron.Lib.Text
import Gadgetron.Lib.Words

/-!
# Links of a page

`parse_links` reads the `[[link]]` occurrences out of a page: a scanner over its bytes, that skips
code, and then the parts of each body, cut out of it as slices of a `str`.
-/

namespace Gadgetron.Knowledge

open Lib List Option

structure WikiLink where
  target : List Char
  (pipeAlias heading : Option (List Char))

/-! ## The body of a link -/

def openBracket : UInt8 := 0x5b
def closeBracket : UInt8 := 0x5d
def backtick : UInt8 := 0x60
def newline : UInt8 := 0x0a

def findLinkEnd (body : List UInt8) (j : ℕ) : Option ℕ :=
  if j + 1 < body.length then
    if body[j]? = some closeBracket ∧ body[j + 1]? = some closeBracket then some j
    else if body[j]? = some openBracket ∧ body[j + 1]? = some openBracket then none
    else if body[j]? = some newline then none
    else findLinkEnd body (j + 1)
  else none
  termination_by body.length - j

/-- The loop over the characters of a body: `pipe_pos` and `hash_pos`. -/
def findMarks : List (ℕ × Char) → Option ℕ → Option ℕ → Option ℕ × Option ℕ
  | [], pipePos, hashPos => (pipePos, hashPos)
  | (idx, ch) :: rest, pipePos, hashPos =>
    let pipePos := if pipePos.isNone ∧ ch = '|' then some idx else pipePos
    let hashPos := if hashPos.isNone ∧ ch = '#' then some idx else hashPos
    if pipePos.isSome ∧ hashPos.isSome then (pipePos, hashPos)
    else findMarks rest pipePos hashPos

def unlessEmpty (text : List Char) : Option (List Char) :=
  if text.isEmpty then none else some text

def targetEnd (s : List Char) : Option ℕ → Option ℕ → ℕ
  | none, none => byteLength s
  | some p, none => p
  | none, some h => h
  | some p, some h => min p h

/-- The alias of a body; the outer `none` where a slice panics. -/
def bodyAlias (s : List Char) : Option ℕ → Option ℕ → Option (Option (List Char))
  | some p, some h =>
    if p < h then do
      let a ← slice s (p + 1) h
      some (unlessEmpty (strip isWhitespace a))
    else do
      let a ← sliceFrom s (p + 1)
      -- a pipe after the hash is a part of the heading
      some (if h < p then none else unlessEmpty (strip isWhitespace a))
  | some p, none => do
    let a ← sliceFrom s (p + 1)
    some (unlessEmpty (strip isWhitespace a))
  | none, _ => some none

def bodyHeading (s : List Char) : Option ℕ → Option (Option (List Char))
  | some h => do
    let raw ← sliceFrom s (h + 1)
    some (unlessEmpty (strip isWhitespace raw))
  | none => some none

/-- `parse_link_body`; the outer `none` where a slice panics. -/
def parseLinkBody (body : List UInt8) : Option (Option WikiLink) :=
  match fromUtf8 body with
  | none => some none
  | some s => do
    let marks := findMarks (charIndices 0 s) none none
    let target ← sliceTo s (targetEnd s marks.1 marks.2)
    let target := strip isWhitespace target
    if target.isEmpty then some none
    else do
      let pipeAlias ← bodyAlias s marks.1 marks.2
      let heading ← bodyHeading s marks.2
      some (some ⟨target, pipeAlias, heading⟩)

/-! ## The scanner -/

/-- The variables of the loop in `parse_links`, and the places where it has cut bodies out. -/
structure LinkScan where
  i : ℕ
  (inFenced inInline : Bool)
  links : List WikiLink
  cuts : List (ℕ × ℕ)

def codeFence : List UInt8 := [backtick, backtick, backtick]

/-- A turn of the loop; `none` where it panics. -/
def LinkScan.turn (bytes : List UInt8) (s : LinkScan) : Option LinkScan :=
  if s.i + 3 ≤ bytes.length ∧ (bytes.drop s.i).take 3 = codeFence then
    some { s with inFenced := !s.inFenced, i := s.i + 3 }
  else if bytes[s.i]? = some newline then some { s with inInline := false, i := s.i + 1 }
  else if s.inFenced = false ∧ bytes[s.i]? = some backtick then
    some { s with inInline := !s.inInline, i := s.i + 1 }
  else if s.inFenced ∨ s.inInline then some { s with i := s.i + 1 }
  else if bytes[s.i]? = some openBracket ∧ bytes[s.i + 1]? = some openBracket then do
    let bodyStart := s.i + 2
    let rest ← sliceBytes bytes bodyStart bytes.length
    match findLinkEnd rest 0 with
    | some relEnd => do
      let body ← sliceBytes bytes bodyStart (bodyStart + relEnd)
      let link ← parseLinkBody body
      some
        { s with
          links := s.links ++ link.toList
          cuts := s.cuts ++ [(bodyStart, bodyStart + relEnd)]
          i := bodyStart + relEnd + 2 }
    | none => some { s with i := s.i + 2 }
  else some { s with i := s.i + 1 }

/-- What a turn does: it goes on, or it cuts a body out between brackets. -/
inductive Turn (bytes : List UInt8) (s : LinkScan) : LinkScan → Prop
  | go (i : ℕ) (inFenced inInline : Bool) (hi : s.i < i) :
      Turn bytes s { s with i, inFenced, inInline }
  | cut (relEnd : ℕ) (body : List UInt8) (link : Option WikiLink)
      (hopen : bytes[s.i + 1]? = some openBracket)
      (hclose : bytes[s.i + 2 + relEnd]? = some closeBracket)
      (hbody : sliceBytes bytes (s.i + 2) (s.i + 2 + relEnd) = some body)
      (hlink : parseLinkBody body = some link) : Turn bytes s
        { s with
          links := s.links ++ link.toList
          cuts := s.cuts ++ [(s.i + 2, s.i + 2 + relEnd)]
          i := s.i + 2 + relEnd + 2 }

variable {bytes : List UInt8} {s s' : LinkScan}

theorem findLinkEnd_eq_some {body : List UInt8} {j relEnd : ℕ}
    (h : findLinkEnd body j = some relEnd) :
    body[relEnd]? = some closeBracket ∧ relEnd < body.length := by
  fun_induction findLinkEnd body j with
  | case1 j hj hclose =>
    cases h
    exact ⟨hclose.1, by omega⟩
  | case2 | case3 | case5 => cases h
  | case4 j hj _ _ _ ih => exact ih h

theorem sliceBytes_to_end {rest : List UInt8} {i : ℕ}
    (h : sliceBytes bytes i bytes.length = some rest) : rest = bytes.drop i := by
  unfold sliceBytes at h
  split_ifs at h
  rw [← some.inj h, ← length_drop, take_length]

theorem turn_of_eq_some (h : s.turn bytes = some s') : Turn bytes s s' := by
  unfold LinkScan.turn at h
  split_ifs at h with hfence hnewline hcode hskip hopen
  iterate 4
    · cases h
      exact .go _ _ _ (by omega)
  · obtain ⟨rest, hrest, h⟩ := bind_eq_some_iff.1 h
    split at h
    next relEnd hend =>
      obtain ⟨body, hbody, h⟩ := bind_eq_some_iff.1 h
      obtain ⟨link, hlink, h⟩ := bind_eq_some_iff.1 h
      cases h
      have hclose := (findLinkEnd_eq_some hend).1
      rw [sliceBytes_to_end hrest, getElem?_drop] at hclose
      exact .cut relEnd body link hopen.2 hclose hbody hlink
    next =>
      cases h
      exact .go _ _ _ (by omega)
  · cases h
    exact .go _ _ _ (by omega)

theorem lt_of_turn (h : s.turn bytes = some s') : s.i < s'.i := by
  cases turn_of_eq_some h with
  | go i inFenced inInline hi => exact hi
  | cut relEnd body link hopen hclose hbody hlink =>
    dsimp only
    omega

/-- The loop of `parse_links`, from `s`. -/
def scanFrom (bytes : List UInt8) (s : LinkScan) : Option LinkScan :=
  if s.i < bytes.length then
    match _h : s.turn bytes with
    | none => none
    | some s' => scanFrom bytes s'
  else some s
  termination_by bytes.length - s.i
  decreasing_by
    have hlt := lt_of_turn _h
    omega

def scanLinks (content : List Char) : Option LinkScan :=
  scanFrom (encodeText content) ⟨0, false, false, [], []⟩

/-- `parse_links`; `none` where it panics. -/
def parseLinks (content : List Char) : Option (List WikiLink) :=
  (scanLinks content).map LinkScan.links

/-! ## Where the marks of a body are -/

def position (c : Char) (s : List Char) : Option ℕ :=
  ((charIndices 0 s).find? fun place => place.2 = c).map Prod.fst

theorem findMarks_eq (places : List (ℕ × Char)) (pipePos hashPos : Option ℕ) :
    findMarks places pipePos hashPos =
      (pipePos.or ((places.find? fun place => place.2 = '|').map Prod.fst),
        hashPos.or ((places.find? fun place => place.2 = '#').map Prod.fst)) := by
  induction places generalizing pipePos hashPos with
  | nil => simp [findMarks]
  | cons place places ih =>
    obtain ⟨idx, ch⟩ := place
    rw [findMarks]
    by_cases hp : ch = '|' <;> by_cases hh : ch = '#' <;> cases pipePos <;> cases hashPos <;>
      simp_all

variable {c : Char}

theorem find?_charIndices_append {left : List Char} (h : c ∉ left) (right : List Char) (n : ℕ) :
    (charIndices n (left ++ c :: right)).find? (fun place => place.2 = c) =
      some (n + byteLength left, c) := by
  induction left generalizing n with
  | nil => simp [charIndices, byteLength, encodeText]
  | cons d left ih =>
    rw [mem_cons, not_or] at h
    rw [cons_append, charIndices, find?_cons_of_neg (by simpa using Ne.symm h.1),
      ih h.2, byteLength_cons, Nat.add_assoc]

theorem position_append {left : List Char} (h : c ∉ left) (right : List Char) :
    position c (left ++ c :: right) = some (byteLength left) := by
  rw [position, find?_charIndices_append h, map_some, Nat.zero_add]

theorem position_of_notMem {s : List Char} (h : c ∉ s) : position c s = none := by
  have hnone : ∀ n, (charIndices n s).find? (fun place => place.2 = c) = none := by
    induction s with
    | nil => exact fun _ => rfl
    | cons d s ih =>
      rw [mem_cons, not_or] at h
      intro n
      rw [charIndices, find?_cons_of_neg (by simpa using Ne.symm h.1), ih h.2]
  rw [position, hnone]
  rfl

theorem position_eq_some {s : List Char} {n : ℕ} (h : position c s = some n) :
    ∃ left right, s = left ++ c :: right ∧ c ∉ left ∧ byteLength left = n := by
  by_cases hc : c ∈ s
  · obtain ⟨left, right, rfl, hleft⟩ := eq_append_cons_of_mem hc
    rw [position_append hleft] at h
    exact ⟨left, right, rfl, hleft, some.inj h⟩
  · rw [position_of_notMem hc] at h
    cases h

theorem marks_eq (s : List Char) :
    findMarks (charIndices 0 s) none none = (position '|' s, position '#' s) := by
  rw [findMarks_eq]
  rfl

/-! ## No slice of a body panics -/

theorem charBytes_pipe : charBytes '|' = 1 := by decide

theorem charBytes_hash : charBytes '#' = 1 := by decide

theorem sliceFrom_behind (hc : charBytes c = 1) (left right : List Char) :
    sliceFrom (left ++ c :: right) (byteLength left + 1) = some right := by
  have hbehind := sliceFrom_append (left ++ [c]) right
  rwa [List.append_assoc, singleton_append, byteLength_append, byteLength_cons, hc] at hbehind

theorem slice_between (hc : charBytes c = 1) (left part right : List Char) :
    slice (left ++ c :: (part ++ right)) (byteLength left + 1)
      (byteLength left + 1 + byteLength part) = some part := by
  have hpart := slice_append (left ++ [c]) part right
  rwa [List.append_assoc, singleton_append, byteLength_append, byteLength_cons, hc] at hpart

theorem exists_between {c d : Char} {left right left' right' : List Char}
    (h : left ++ c :: right = left' ++ d :: right') (hlt : byteLength left < byteLength left') :
    ∃ part, left' = left ++ c :: part ∧ right = part ++ d :: right' := by
  rcases append_eq_append_iff.1 h with ⟨part, rfl, hpart⟩ | ⟨part, rfl, -⟩
  · cases part with
    | nil =>
      rw [append_nil] at hlt
      exact absurd hlt (lt_irrefl _)
    | cons e part =>
      obtain ⟨rfl, hright⟩ := cons.inj hpart
      exact ⟨part, rfl, hright⟩
  · rw [byteLength_append] at hlt
    omega

theorem exists_bodyAlias (s : List Char) :
    ∃ pipeAlias, bodyAlias s (position '|' s) (position '#' s) = some pipeAlias := by
  cases hp : position '|' s with
  | none => exact ⟨none, rfl⟩
  | some p =>
    obtain ⟨left, right, hs, -, rfl⟩ := position_eq_some hp
    have hfrom := sliceFrom_behind charBytes_pipe left right
    rw [← hs] at hfrom
    cases hh : position '#' s with
    | none =>
      rw [bodyAlias, hfrom]
      exact ⟨_, rfl⟩
    | some h =>
      rw [bodyAlias]
      by_cases hlt : byteLength left < h
      · obtain ⟨left', right', hs', -, rfl⟩ := position_eq_some hh
        obtain ⟨part, rfl, rfl⟩ := exists_between (hs.symm.trans hs') hlt
        have hpart := slice_between charBytes_pipe left part ('#' :: right')
        rw [← hs] at hpart
        rw [if_pos hlt, byteLength_append, byteLength_cons, charBytes_pipe, ← Nat.add_assoc, hpart]
        exact ⟨_, rfl⟩
      · rw [if_neg hlt, hfrom]
        exact ⟨_, rfl⟩

theorem exists_bodyHeading (s : List Char) :
    ∃ heading, bodyHeading s (position '#' s) = some heading := by
  cases hh : position '#' s with
  | none => exact ⟨none, rfl⟩
  | some h =>
    obtain ⟨left, right, rfl, -, rfl⟩ := position_eq_some hh
    rw [bodyHeading, sliceFrom_behind charBytes_hash]
    exact ⟨_, rfl⟩

theorem exists_sliceTo_position {s : List Char} {n : ℕ} (h : position c s = some n) :
    ∃ target, sliceTo s n = some target := by
  obtain ⟨left, right, rfl, -, rfl⟩ := position_eq_some h
  exact ⟨left, sliceTo_append left _⟩

theorem exists_target (s : List Char) :
    ∃ target, sliceTo s (targetEnd s (position '|' s) (position '#' s)) = some target := by
  cases hp : position '|' s with
  | none =>
    cases hh : position '#' s with
    | none =>
      have hall := sliceTo_append s []
      rw [append_nil] at hall
      exact ⟨s, hall⟩
    | some h => exact exists_sliceTo_position hh
  | some p =>
    cases hh : position '#' s with
    | none => exact exists_sliceTo_position hp
    | some h =>
      rcases Nat.le_total p h with hle | hle
      · rw [targetEnd, Nat.min_eq_left hle]
        exact exists_sliceTo_position hp
      · rw [targetEnd, Nat.min_eq_right hle]
        exact exists_sliceTo_position hh

theorem exists_parseLinkBody (body : List UInt8) : ∃ link, parseLinkBody body = some link := by
  unfold parseLinkBody
  cases hbody : fromUtf8 body with
  | none => exact ⟨none, rfl⟩
  | some s =>
    obtain ⟨target, htarget⟩ := exists_target s
    obtain ⟨pipeAlias, halias⟩ := exists_bodyAlias s
    obtain ⟨heading, hheading⟩ := exists_bodyHeading s
    dsimp only
    rw [marks_eq, htarget, bind_eq_bind, bind_some]
    by_cases hempty : (strip isWhitespace target).isEmpty = true
    · rw [if_pos hempty]
      exact ⟨none, rfl⟩
    · rw [if_neg hempty, halias, hheading]
      exact ⟨_, rfl⟩

/-! ## No turn panics, and every cut is at boundaries -/

theorem exists_turn (bytes : List UInt8) (s : LinkScan) : ∃ s', s.turn bytes = some s' := by
  unfold LinkScan.turn
  split_ifs with hfence hnewline hcode hskip hopen
  iterate 4 · exact ⟨_, rfl⟩
  · have hlt := (List.getElem?_eq_some_iff.1 hopen.2).1
    have hrest : sliceBytes bytes (s.i + 2) bytes.length = some (bytes.drop (s.i + 2)) := by
      rw [sliceBytes, if_pos (by omega), ← length_drop, take_length]
    dsimp only
    rw [hrest, bind_eq_bind, bind_some]
    split
    next relEnd hend =>
      have hle := (findLinkEnd_eq_some hend).2
      rw [length_drop] at hle
      rw [sliceBytes, if_pos (by omega), bind_some]
      obtain ⟨link, hlink⟩ := exists_parseLinkBody
        ((bytes.drop (s.i + 2)).take (s.i + 2 + relEnd - (s.i + 2)))
      rw [hlink]
      exact ⟨_, rfl⟩
    next => exact ⟨_, rfl⟩
  · exact ⟨_, rfl⟩

/-- Every cut so far begins and ends at a boundary of the text. -/
def LinkScan.Aligned (content : List Char) (s : LinkScan) : Prop :=
  ∀ cut ∈ s.cuts, IsCharBoundary content cut.1 ∧ IsCharBoundary content cut.2

variable {content : List Char}

theorem aligned_turn (hs : s.Aligned content)
    (h : Turn (encodeText content) s s') : s'.Aligned content := by
  cases h with
  | go i inFenced inInline hi => exact hs
  | cut relEnd body link hopen hclose hbody hlink =>
    intro cut hcut
    rcases mem_append.1 hcut with hold | hnew
    · exact hs cut hold
    · rw [mem_singleton.1 hnew]
      exact ⟨(isCharBoundary_of_ascii hopen (by decide)).2,
        (isCharBoundary_of_ascii hclose (by decide)).1⟩

theorem exists_scanFrom (hs : s.Aligned content) :
    ∃ t, scanFrom (encodeText content) s = some t ∧ t.Aligned content := by
  fun_induction scanFrom (encodeText content) s with
  | case1 s hlt hnone =>
    obtain ⟨s', hturn⟩ := exists_turn (encodeText content) s
    rw [hnone] at hturn
    cases hturn
  | case2 s hlt s' hturn ih => exact ih (aligned_turn hs (turn_of_eq_some hturn))
  | case3 s hend => exact ⟨s, rfl, hs⟩

/-! ## Links in wiki syntax -/

def linkMarks : List Char := ['|', '#', '[', ']', '\x60', '\n']

/-- A target, an alias or a heading that can be written as it is. -/
structure LinkPart where
  text : List Char
  nonempty : text ≠ []
  trimmed : strip isWhitespace text = text
  plain : ∀ c ∈ text, c ∉ linkMarks

structure PlainLink where
  target : LinkPart
  (pipeAlias heading : Option LinkPart)

namespace PlainLink

def link (l : PlainLink) : WikiLink where
  target := l.target.text
  pipeAlias := l.pipeAlias.map LinkPart.text
  heading := l.heading.map LinkPart.text

def marked (mark : Char) : Option LinkPart → List Char
  | none => []
  | some part => mark :: part.text

def body (l : PlainLink) : List Char :=
  l.target.text ++ (marked '|' l.pipeAlias ++ marked '#' l.heading)

end PlainLink

/-- A piece of a page: a text without brackets and backticks, or a link. -/
inductive Piece
  | text (content : List Char) (plain : ∀ c ∈ content, c ∉ ['[', ']', '\x60'])
  | link (l : PlainLink)

def Piece.render : Piece → List Char
  | .text content _ => content
  | .link l => '[' :: '[' :: (l.body ++ [']', ']'])

def Piece.link? : Piece → Option WikiLink
  | .text _ _ => none
  | .link l => some l.link

def renderPieces (pieces : List Piece) : List Char := pieces.flatMap Piece.render

/-! ## The body of a written link -/

theorem LinkPart.notMem (part : LinkPart) (hc : c ∈ linkMarks) : c ∉ part.text :=
  fun hmem => part.plain c hmem hc

theorem LinkPart.unlessEmpty_strip (part : LinkPart) :
    unlessEmpty (strip isWhitespace part.text) = some part.text := by
  rw [part.trimmed, unlessEmpty, if_neg (by simpa using part.nonempty)]

section

variable (l : PlainLink)

theorem position_body_pipe :
    position '|' l.body = l.pipeAlias.map fun _ => byteLength l.target.text := by
  have htarget := l.target.notMem (c := '|') (by decide)
  unfold PlainLink.body
  cases l.pipeAlias with
  | some pipeAlias => exact position_append htarget _
  | none =>
    refine position_of_notMem ?_
    cases l.heading with
    | none => simpa [PlainLink.marked] using htarget
    | some heading =>
      have hheading := heading.notMem (c := '|') (by decide)
      simp [PlainLink.marked, htarget, hheading]

theorem position_body_hash : position '#' l.body = l.heading.map fun _ =>
      byteLength (l.target.text ++ PlainLink.marked '|' l.pipeAlias) := by
  have hbefore : '#' ∉ l.target.text ++ PlainLink.marked '|' l.pipeAlias := by
    have htarget := l.target.notMem (c := '#') (by decide)
    cases l.pipeAlias with
    | none => simpa [PlainLink.marked] using htarget
    | some pipeAlias =>
      have halias := pipeAlias.notMem (c := '#') (by decide)
      simp [PlainLink.marked, htarget, halias]
  unfold PlainLink.body
  rw [← List.append_assoc]
  cases l.heading with
  | none =>
    refine position_of_notMem ?_
    rwa [PlainLink.marked, append_nil]
  | some heading => exact position_append hbefore _

theorem sliceTo_body :
    sliceTo l.body (targetEnd l.body (position '|' l.body) (position '#' l.body)) =
      some l.target.text := by
  have htarget := sliceTo_append l.target.text
    (PlainLink.marked '|' l.pipeAlias ++ PlainLink.marked '#' l.heading)
  rw [position_body_pipe, position_body_hash]
  have hend : targetEnd l.body (l.pipeAlias.map fun _ => byteLength l.target.text)
      (l.heading.map fun _ => byteLength (l.target.text ++ PlainLink.marked '|' l.pipeAlias)) =
      byteLength l.target.text := by
    unfold PlainLink.body
    cases l.pipeAlias <;> cases l.heading <;> simp [targetEnd, PlainLink.marked]
  rw [hend]
  exact htarget

theorem bodyAlias_body :
    bodyAlias l.body (position '|' l.body) (position '#' l.body) =
      some (l.pipeAlias.map LinkPart.text) := by
  rw [position_body_pipe, position_body_hash]
  unfold PlainLink.body
  cases l.pipeAlias with
  | none => rfl
  | some pipeAlias =>
    cases l.heading with
    | none =>
      have hfrom := sliceFrom_behind charBytes_pipe l.target.text pipeAlias.text
      simp only [map_some, map_none, PlainLink.marked, bodyAlias,
        append_nil, hfrom, bind_eq_bind, bind_some,
        pipeAlias.unlessEmpty_strip]
    | some heading =>
      have hpart := slice_between charBytes_pipe l.target.text pipeAlias.text ('#' :: heading.text)
      have hend : byteLength (l.target.text ++ '|' :: pipeAlias.text) =
          byteLength l.target.text + 1 + byteLength pipeAlias.text := by
        rw [byteLength_append, byteLength_cons, charBytes_pipe, Nat.add_assoc]
      simp only [map_some, PlainLink.marked, bodyAlias, hend, cons_append]
      rw [if_pos (by omega), hpart, bind_eq_bind, bind_some, pipeAlias.unlessEmpty_strip]

theorem bodyHeading_body :
    bodyHeading l.body (position '#' l.body) = some (l.heading.map LinkPart.text) := by
  rw [position_body_hash]
  unfold PlainLink.body
  cases l.heading with
  | none => rfl
  | some heading =>
    have hfrom := sliceFrom_behind charBytes_hash
      (l.target.text ++ PlainLink.marked '|' l.pipeAlias) heading.text
    rw [List.append_assoc] at hfrom
    simp only [map_some, bodyHeading, PlainLink.marked] at hfrom ⊢
    rw [hfrom, bind_eq_bind, bind_some, heading.unlessEmpty_strip]

theorem parseLinkBody_body :
    parseLinkBody (encodeText l.body) = some (some l.link) := by
  unfold parseLinkBody
  rw [fromUtf8_encodeText]
  dsimp only
  rw [marks_eq, sliceTo_body, bind_eq_bind, bind_some, l.target.trimmed,
    if_neg (by simpa using l.target.nonempty), bodyAlias_body, bodyHeading_body]
  rfl

end

/-! ## The scanner on a written page -/

section

variable {i : ℕ} {links : List WikiLink} {cuts : List (ℕ × ℕ)} {rest : List UInt8} {b : UInt8}

theorem getElem?_of_drop (h : bytes.drop i = b :: rest) : bytes[i]? = some b := by
  have hfirst := congrArg List.head? h
  rwa [head?_drop] at hfirst

theorem lt_of_drop (h : bytes.drop i = b :: rest) : i < bytes.length := by
  by_contra hle
  rw [drop_eq_nil_of_le (Nat.not_lt.1 hle)] at h
  cases h

theorem drop_of_drop_append {front : List UInt8} (h : bytes.drop i = front ++ rest) :
    bytes.drop (i + front.length) = rest := by
  rw [← drop_drop, h, drop_left]

theorem drop_succ_of_drop (h : bytes.drop i = b :: rest) : bytes.drop (i + 1) = rest :=
  drop_of_drop_append (show bytes.drop i = [b] ++ rest from h)

theorem scanFrom_of_turn (hi : s.i < bytes.length) (h : s.turn bytes = some s') :
    scanFrom bytes s = scanFrom bytes s' := by
  rw [scanFrom, if_pos hi]
  split
  next hnone =>
    rw [h] at hnone
    cases hnone
  next s'' hsome =>
    rw [h] at hsome
    rw [some.inj hsome]

theorem turn_plain (h : bytes.drop i = b :: rest) (hopen : b ≠ openBracket) (htick : b ≠ backtick) :
    (LinkScan.mk i false false links cuts).turn bytes =
      some ⟨i + 1, false, false, links, cuts⟩ := by
  unfold LinkScan.turn
  dsimp only
  rw [h, getElem?_of_drop h, if_neg (fun hfence => htick (cons.inj hfence.2).1)]
  by_cases hline : b = newline
  · rw [if_pos (congrArg some hline)]
  · rw [if_neg fun hnewline => hline (some.inj hnewline),
      if_neg fun hcode => htick (some.inj hcode.2), if_neg (by decide),
      if_neg fun hlink => hopen (some.inj hlink.1)]

variable {plain : List UInt8}

theorem scanFrom_plain (h : bytes.drop i = plain ++ rest)
    (hplain : ∀ b ∈ plain, b ≠ openBracket ∧ b ≠ backtick) :
    scanFrom bytes ⟨i, false, false, links, cuts⟩ =
      scanFrom bytes ⟨i + plain.length, false, false, links, cuts⟩ := by
  induction plain generalizing i with
  | nil => rfl
  | cons b plain ih =>
    obtain ⟨⟨hopen, htick⟩, hrest⟩ := forall_mem_cons.1 hplain
    have hnext := drop_succ_of_drop h
    rw [scanFrom_of_turn (lt_of_drop h) (turn_plain h hopen htick), length_cons,
      Nat.add_comm plain.length, ← Nat.add_assoc]
    exact ih hnext hrest

theorem findLinkEnd_plain (h : bytes.drop i = plain ++ closeBracket :: closeBracket :: rest)
    (hplain : ∀ b ∈ plain, b ≠ openBracket ∧ b ≠ closeBracket ∧ b ≠ newline) :
    findLinkEnd bytes i = some (i + plain.length) := by
  have hlength := congrArg List.length h
  simp only [length_drop, List.length_append, length_cons] at hlength
  induction plain generalizing i with
  | nil =>
    have hnext := drop_succ_of_drop h
    rw [findLinkEnd, if_pos (by omega), getElem?_of_drop h, getElem?_of_drop hnext,
      if_pos ⟨rfl, rfl⟩]
    rfl
  | cons b plain ih =>
    obtain ⟨⟨hopen, hclose, hnewline⟩, hrest⟩ := forall_mem_cons.1 hplain
    rw [length_cons] at hlength
    rw [findLinkEnd, if_pos (by omega), getElem?_of_drop h,
      if_neg (fun hend => hclose (some.inj hend.1)),
      if_neg (fun hnested => hopen (some.inj hnested.1)),
      if_neg (fun hline => hnewline (some.inj hline)),
      ih (drop_succ_of_drop h) hrest (by omega), length_cons,
      Nat.add_comm plain.length, ← Nat.add_assoc]

theorem turn_link {inner : List UInt8} {link : WikiLink} (h : bytes.drop i =
      openBracket :: openBracket :: (inner ++ closeBracket :: closeBracket :: rest))
    (hinner : ∀ b ∈ inner, b ≠ openBracket ∧ b ≠ closeBracket ∧ b ≠ newline)
    (hlink : parseLinkBody inner = some (some link)) :
    (LinkScan.mk i false false links cuts).turn bytes =
      some ⟨i + 2 + inner.length + 2, false, false, links ++ [link],
        cuts ++ [(i + 2, i + 2 + inner.length)]⟩ := by
  have hsecond := drop_succ_of_drop h
  have hbody : bytes.drop (i + 2) = inner ++ closeBracket :: closeBracket :: rest :=
    drop_succ_of_drop hsecond
  have hlength := congrArg List.length hbody
  simp only [length_drop, List.length_append, length_cons] at hlength
  have hrest : sliceBytes bytes (i + 2) bytes.length =
      some (inner ++ closeBracket :: closeBracket :: rest) := by
    rw [sliceBytes, if_pos (by omega), ← length_drop, take_length, hbody]
  have hslice : sliceBytes bytes (i + 2) (i + 2 + inner.length) = some inner := by
    rw [sliceBytes, if_pos (by omega), hbody, Nat.add_sub_cancel_left, take_left]
  have hend : findLinkEnd (inner ++ closeBracket :: closeBracket :: rest) 0 =
      some (0 + inner.length) := findLinkEnd_plain drop_zero hinner
  rw [Nat.zero_add] at hend
  unfold LinkScan.turn
  dsimp only
  rw [h, getElem?_of_drop h, getElem?_of_drop hsecond,
    if_neg (fun hfence => absurd (cons.inj hfence.2).1 (by decide)), if_neg (by decide),
    if_neg (by decide), if_neg (by decide), if_pos ⟨rfl, rfl⟩, hrest, bind_eq_bind,
    bind_some, hend]
  dsimp only
  rw [hslice, bind_some, hlink]
  rfl

end

theorem notMem_encodeText {text : List Char} {b : UInt8}
    (hc : String.utf8EncodeChar c = [b]) (hb : b.toNat < 0x80) (h : c ∉ text) :
    ∀ b' ∈ encodeText text, b' ≠ b := by
  rintro b' hb' rfl
  exact h (mem_of_mem_encodeText hc hb hb')

theorem notMem_body (l : PlainLink) (hc : c ∈ linkMarks) (hpipe : c ≠ '|')
    (hhash : c ≠ '#') : c ∉ l.body := by
  have hmarked : ∀ (mark : Char) (part : Option LinkPart), c ≠ mark →
      c ∉ PlainLink.marked mark part := by
    intro mark part hmark
    cases part with
    | none => exact not_mem_nil
    | some part => exact not_mem_cons_of_ne_of_not_mem hmark (part.notMem hc)
  unfold PlainLink.body
  simp only [mem_append, not_or]
  exact ⟨l.target.notMem hc, hmarked '|' l.pipeAlias hpipe, hmarked '#' l.heading hhash⟩

theorem scanFrom_render (pieces : List Piece) {i : ℕ} {links : List WikiLink}
    {cuts : List (ℕ × ℕ)} (h : bytes.drop i = encodeText (renderPieces pieces)) :
    ∃ t, scanFrom bytes ⟨i, false, false, links, cuts⟩ = some t ∧
      t.links = links ++ pieces.filterMap Piece.link? := by
  induction pieces generalizing i links cuts with
  | nil =>
    have hend : ¬i < bytes.length := Nat.not_lt.2 (drop_eq_nil_iff.1 h)
    refine ⟨⟨i, false, false, links, cuts⟩, ?_, (append_nil links).symm⟩
    rw [scanFrom, if_neg hend]
  | cons piece pieces ih =>
    rw [renderPieces, flatMap_cons, encodeText_append] at h
    have hnext := drop_of_drop_append h
    cases piece with
    | text content plain =>
      rw [scanFrom_plain h fun b hb => ?_]
      · exact ih hnext
      · have hopen : ∀ b ∈ encodeText content, b ≠ openBracket :=
          notMem_encodeText (c := '[') (by decide) (by decide) fun hmem =>
            plain _ hmem (by decide)
        have htick : ∀ b ∈ encodeText content, b ≠ backtick :=
          notMem_encodeText (c := '\x60') (by decide) (by decide) fun hmem =>
            plain _ hmem (by decide)
        exact ⟨hopen b hb, htick b hb⟩
    | link l =>
      have hrender : encodeText (Piece.link l).render = openBracket :: openBracket ::
          (encodeText l.body ++ [closeBracket, closeBracket]) := by
        rw [Piece.render, encodeText_cons, encodeText_cons, encodeText_append]
        rfl
      have hbody : ∀ b ∈ encodeText l.body,
          b ≠ openBracket ∧ b ≠ closeBracket ∧ b ≠ newline := by
        have hopen := notMem_encodeText (c := '[') (b := openBracket) (by decide) (by decide)
          (notMem_body l (by decide) (by decide) (by decide))
        have hclose := notMem_encodeText (c := ']') (b := closeBracket) (by decide)
          (by decide) (notMem_body l (by decide) (by decide) (by decide))
        have hline := notMem_encodeText (c := '\n') (b := newline) (by decide) (by decide)
          (notMem_body l (by decide) (by decide) (by decide))
        exact fun b hb => ⟨hopen b hb, hclose b hb, hline b hb⟩
      have hend : i + (encodeText (Piece.link l).render).length =
          i + 2 + (encodeText l.body).length + 2 := by
        rw [hrender, length_cons, length_cons, List.length_append]
        simp only [length_cons, length_nil]
        omega
      rw [hend] at hnext
      rw [hrender, cons_append, cons_append, List.append_assoc] at h
      rw [scanFrom_of_turn (lt_of_drop h) (turn_link h hbody (parseLinkBody_body l))]
      obtain ⟨t, hscan, hlinks⟩ := ih hnext
      refine ⟨t, hscan, ?_⟩
      rw [hlinks, List.append_assoc]
      rfl

/-- The links that are written are read, in order; and whatever the text, the scan ends without a
panic and has cut at boundaries only. -/
theorem parseLinks_render : (∀ pieces : List Piece,
      parseLinks (renderPieces pieces) = some (pieces.filterMap Piece.link?)) ∧
      ∀ content : List Char, ∃ t, scanLinks content = some t ∧ parseLinks content = some t.links ∧
        ∀ cut ∈ t.cuts, IsCharBoundary content cut.1 ∧ IsCharBoundary content cut.2 := by
  refine ⟨fun pieces => ?_, fun content => ?_⟩
  · obtain ⟨t, hscan, hlinks⟩ :
        ∃ t, scanFrom (encodeText (renderPieces pieces)) ⟨0, false, false, [], []⟩ = some t ∧
          t.links = [] ++ pieces.filterMap Piece.link? := scanFrom_render pieces drop_zero
    rw [parseLinks, scanLinks, hscan, map_some, hlinks, nil_append]
  · have hstart : (LinkScan.mk 0 false false [] []).Aligned content :=
      fun cut hcut => absurd hcut not_mem_nil
    obtain ⟨t, hscan, haligned⟩ := exists_scanFrom hstart
    exact ⟨t, hscan, by rw [parseLinks, scanLinks, hscan, map_some], haligned⟩

end Gadgetron.Knowledge
