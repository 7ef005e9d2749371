import Gadgetron.Penny.Content
import Gadgetron.Web.LiveStream

/-!
# Markers out and back

Penny sets thinking, tool calls and tool results in markers, without escaping what stands in them;
the web client ends each at the first character that closes it.
-/

namespace Gadgetron.Web

open Lib Penny List Option

def encoded (pieces : List Piece) : List Char := pieces.flatMap (·.render.toList)

/-- What the client should read of a piece: a result is cut by the encoder. -/
def expectedOf : Piece → List Symbol
  | .answer text => text.toList.map .inl
  | .thinking text => [.inr (.thinking text.toList)]
  | .toolCall name input => [.inr (.toolUse name.toList input.toList)]
  | .toolResult isError output =>
    [.inr (.toolResult (!isError) (truncateChars output 300).toList)]

def expected (pieces : List Piece) : List Symbol := pieces.flatMap expectedOf

/-- The symbols without the whitespace right behind a marker; `behind` tells that only whitespace
stands between here and the last marker. -/
def trimBehind : Bool → List Symbol → List Symbol
  | _, [] => []
  | behind, .inl c :: rest =>
    if behind && isJsSpace c then trimBehind true rest else .inl c :: trimBehind false rest
  | _, .inr s :: rest => .inr s :: trimBehind true rest

def signs : List Char := ['💭', '🔧', '✓', '❌']

def Plain (text : List Char) : Prop := ∀ c ∈ text, c ∉ signs

instance : DecidablePred Plain := fun text => List.decidableBAll (fun c => c ∉ signs) text

/-- No answer contains a sign of a marker. -/
def AnswersPlain (pieces : List Piece) : Prop :=
  ∀ text, .answer text ∈ pieces → Plain text.toList

/-- The piece does not close its own marker, and the encoder sets it in as it is. -/
def Fits : Piece → Prop
  | .answer _ => True
  | .thinking text => '_' ∉ text.toList ∧ '\n' ∉ text.toList
  | .toolCall name input =>
    name.toList ≠ [] ∧ '*' ∉ name.toList ∧ '\x60' ∉ input.toList ∧ truncateChars input 120 = input
  | .toolResult _ output => '\n' ∉ (truncateChars output 300).toList

theorem toList_contentOf (chunks : List ChatChunk) :
    (contentOf chunks).toList = encoded (chunks.filterMap (·.content)) := by
  unfold contentOf encoded
  induction chunks with
  | nil => rfl
  | cons chunk chunks ih =>
    cases hcontent : chunk.content with
    | none => simpa [hcontent] using ih
    | some piece => simpa [hcontent, String.join_cons] using ih

theorem encoded_cons (piece : Piece) (pieces : List Piece) :
    encoded (piece :: pieces) = piece.render.toList ++ encoded pieces := flatMap_cons

theorem expected_cons (piece : Piece) (pieces : List Piece) :
    expected (piece :: pieces) = expectedOf piece ++ expected pieces := flatMap_cons

/-! ## Whitespace behind a marker -/

section

variable {behind : Bool} {c : Char} {s s' : BufferedSegment} {x x' : List Symbol}

theorem trimBehind_space (h : isJsSpace c = true) (x : List Symbol) :
    trimBehind true (.inl c :: x) = trimBehind true x := by
  rw [trimBehind, h]
  rfl

theorem trimBehind_marker (text : List Char) : trimBehind behind (text.map .inl ++ .inr s :: x) =
    trimBehind behind (text.map .inl) ++ .inr s :: trimBehind true x := by
  induction text generalizing behind with
  | nil => rfl
  | cons c text ih =>
    rw [map_cons, cons_append, trimBehind, trimBehind, ih, ih]
    split_ifs <;> rfl

theorem trimBehind_marker_inj (text : List Char) :
    trimBehind behind (text.map .inl ++ .inr s :: x) =
        trimBehind behind (text.map .inl ++ .inr s' :: x') ↔
      s = s' ∧ trimBehind true x = trimBehind true x' := by
  rw [trimBehind_marker, trimBehind_marker, append_cancel_left_eq, cons.injEq, Sum.inr.injEq]

theorem trimBehind_text_ne (text : List Char) :
    trimBehind behind (text.map .inl) ≠ trimBehind behind (text.map .inl ++ .inr s :: x) := by
  rw [trimBehind_marker]
  intro h
  have hlength := congrArg List.length h
  rw [List.length_append, length_cons] at hlength
  omega

end

theorem trimBehind_dropWhile {l : List Char}
    (h : ∀ r, l.dropWhile isJsSpace = '🔧' :: r → toolSign <+: '🔧' :: r) :
    trimBehind true (reading (l.dropWhile isJsSpace)) = trimBehind true (reading l) := by
  induction l with
  | nil => rfl
  | cons c r ih =>
    by_cases hspace : isJsSpace c = true
    · rw [dropWhile_cons, if_pos hspace] at h ⊢
      rw [ih h]
      by_cases hc : c = '\n'
      · subst hc
        rcases newline_cases r with ⟨-, heq⟩ | ⟨hnot, -⟩
        · rw [heq]
        · have hsign : ¬ ['🔧'] <+: r := by
            rintro ⟨tail, rfl⟩
            exact hnot (.inl (h tail rfl))
          rw [reading_cons (startsMarker_newline hsign fun hbreak => hnot (.inr hbreak)),
            trimBehind_space hspace]
      · rw [reading_cons (startsMarker_space hspace hc r), trimBehind_space hspace]
    · rw [dropWhile_cons, if_neg hspace]

/-! ## Encoded pieces -/

theorem Plain.append {text text' : List Char} (h : Plain text) (h' : Plain text') :
    Plain (text ++ text') := by
  intro c hc
  rcases mem_append.1 hc with hc | hc
  · exact h c hc
  · exact h' c hc

variable {text : List Char}

theorem clear_of_plain (h : Plain text) {r : List Char}
    (hr : ∀ m ∈ markerStarts, ∀ z ∈ m.tail.tails, z <+: r → Plain z) : Clear text r := by
  induction text with
  | nil => trivial
  | cons c text ih =>
    refine ⟨?_, ih fun d hd => h d (mem_cons_of_mem c hd)⟩
    rw [Bool.eq_false_iff]
    intro hstart
    obtain ⟨m, hm, hpre⟩ := List.any_eq_true.1 hstart
    rw [ isPrefixOf_iff_prefix] at hpre
    have hsigned : ∀ m ∈ markerStarts, (m.any fun d => decide (d ∈ signs)) = true := by decide
    obtain ⟨d, hd, hsign⟩ := List.any_eq_true.1 (hsigned m hm)
    rw [decide_eq_true_eq] at hsign
    obtain ⟨tail, htail⟩ := hpre
    rw [← cons_append] at htail
    rcases append_eq_append_iff.1 htail with
      ⟨z, htext, -⟩ | ⟨z, rfl, rfl⟩
    · exact h d (htext ▸ mem_append_left z hd) hsign
    · rcases mem_append.1 hd with hd | hd
      · exact h d hd hsign
      · refine hr _ hm z ?_ (prefix_append z tail) d hd hsign
        exact mem_tails _ _ |>.2 (suffix_append text z)

theorem clear_head (h : Plain text) (head : List Char) (hlong : 3 ≤ head.length)
    (hhead : ∀ m ∈ markerStarts, ∀ z ∈ m.tail.tails, z <+: head → Plain z) (rest : List Char) :
    Clear text (head ++ rest) := by
  refine clear_of_plain h fun m hm z hz hpre => hhead m hm z hz ?_
  refine prefix_of_prefix_length_le hpre (prefix_append head rest) ?_
  have hshort : ∀ m ∈ markerStarts, ∀ z ∈ m.tail.tails, z.length ≤ 3 := by decide
  exact (hshort m hm z hz).trans hlong

theorem plain_of_space (h : ∀ c ∈ text, isJsSpace c = true) : Plain text := by
  intro c hc hsign
  have hsigns : ∀ c ∈ signs, ¬ isJsSpace c = true := forall_mem_of_all (by decide)
  exact hsigns c hsign (h c hc)

theorem trimBehind_spaces (h : ∀ c ∈ text, isJsSpace c = true)
    (x : List Symbol) : trimBehind true (text.map .inl ++ x) = trimBehind true x := by
  induction text with
  | nil => rfl
  | cons c text ih =>
    rw [map_cons, cons_append, trimBehind_space (h c mem_cons_self)]
    exact ih fun d hd => h d (mem_cons_of_mem c hd)

/-! ## Replacing and cutting -/

theorem toList_replaceChar (c : Char) (new : List Char) (text : String) :
    (replaceChar c new text).toList = text.toList.flatMap fun d => if d = c then new else [d] :=
  String.toList_ofList

variable {new : List Char}

theorem mem_replaceChar {c d : Char} {text : String}
    (h : d ∈ (replaceChar c new text).toList) : d ∈ new ∨ d ∈ text.toList ∧ d ≠ c := by
  rw [toList_replaceChar] at h
  obtain ⟨d', hd', h⟩ := mem_flatMap.1 h
  split_ifs at h with hc
  · exact .inl h
  · obtain rfl := mem_singleton.1 h
    exact .inr ⟨hd', hc⟩

variable {c : Char}

theorem replaceChar_of_not_mem {text : String} (h : c ∉ text.toList) (new : List Char) :
    (replaceChar c new text).toList = text.toList := by
  rw [toList_replaceChar]
  refine (flatMap_congr fun d hd => if_neg ?_).trans (flatMap_singleton' _)
  rintro rfl
  exact h hd

theorem length_replaceChar (c : Char) (hnew : new ≠ []) (text : String) :
    (replaceChar c new text).toList.length =
      text.toList.length + text.toList.count c * (new.length - 1) := by
  rw [toList_replaceChar]
  have hpos := length_pos_iff.2 hnew
  induction text.toList with
  | nil => simp
  | cons d l ih =>
    rw [flatMap_cons, List.length_append, ih, length_cons, count_cons]
    split_ifs with hd hc hc
    · rw [Nat.add_mul]
      omega
    · exact absurd (beq_iff_eq.2 hd) hc
    · exact absurd (beq_iff_eq.1 hc) hd
    · simp only [List.length_singleton, Nat.add_zero]
      omega

theorem replaceChar_ne (hnew : 1 < new.length) {text : String}
    (h : c ∈ text.toList) : (replaceChar c new text).toList ≠ text.toList := by
  intro heq
  have hlength := length_replaceChar c (ne_nil_of_length_pos (Nat.zero_lt_of_lt hnew)) text
  rw [heq] at hlength
  have hcount := Nat.mul_pos (count_pos_iff.2 h) (Nat.sub_pos_of_lt hnew)
  omega

theorem mem_truncateChars {text : String} {maxChars : ℕ}
    (h : c ∈ (truncateChars text maxChars).toList) : c ∈ text.toList ∨ c = '.' := by
  unfold truncateChars at h
  split_ifs at h
  · exact .inl h
  · rw [String.toList_append, String.toList_ofList] at h
    rcases mem_append.1 h with h | h
    · exact .inl (mem_of_mem_take h)
    · exact .inr (by simpa using h)

/-! ## What is read of a piece -/

theorem exists_first (close : Char) (text rest : List Char) :
    ∃ body after, text ++ close :: rest = body ++ close :: after ∧ close ∉ body ∧
      (close ∉ text → body = text ∧ after = rest) := by
  by_cases hmem : close ∈ text
  · obtain ⟨body, after, htext, hbody⟩ := eq_append_cons_of_mem hmem
    refine ⟨body, after ++ close :: rest, ?_, hbody, fun h => absurd hmem h⟩
    rw [htext, List.append_assoc, cons_append]
  · exact ⟨text, rest, rfl, hmem, fun _ => ⟨rfl, rfl⟩⟩

section

variable (text name input output : String) (isError : Bool) (rest : List Char)

theorem render_thinking : (Piece.thinking text).render.toList ++ rest = ['>', ' ', '💭', ' ', '_'] ++
    ((replaceChar '\n' ['\n', '>', ' '] text).toList ++ '_' :: '\n' :: '\n' :: rest) := by
  simp [Piece.render, formatThinkingBlock]

theorem render_toolCall : (Piece.toolCall name input).render.toList ++ rest = ['\n', '\n'] ++
    '🔧' :: ([' ', '*', '*'] ++ name.toList ++ ['*', '*', ' ', '\x60'] ++
      ((truncateChars input 120).toList ++ '\x60' :: '\n' :: '\n' :: rest)) := by
  simp [Piece.render, formatToolCall]

theorem render_toolResult : (Piece.toolResult isError output).render.toList ++ rest =
    [if isError then '❌' else '✓', ' ', '_'] ++
      ((replaceChar '\n' [' '] (truncateChars output 300)).toList ++ ['_', ' ', '\n', '\n'] ++
        rest) := by
  cases isError <;> simp [Piece.render, formatToolResult]

end

theorem marker_thinking_piece (text : String) (rest : List Char) :
    ∃ body l', marker ((Piece.thinking text).render.toList ++ rest) = some (.thinking body, l') ∧
      (body = text.toList ↔ Fits (.thinking text)) ∧
        (Fits (.thinking text) → l' = '\n' :: rest) := by
  rw [render_thinking]
  set quoted := (replaceChar '\n' ['\n', '>', ' '] text).toList with hquoted
  obtain ⟨body, after, heq, hbody, hsame⟩ := exists_first '_' quoted ('\n' :: '\n' :: rest)
  have hfree : '_' ∉ text.toList → body = quoted ∧ after = '\n' :: '\n' :: rest := by
    intro h
    refine hsame fun hmem => ?_
    rcases mem_replaceChar hmem with hmem | ⟨hmem, -⟩
    · exact absurd hmem (by decide)
    · exact h hmem
  refine ⟨body, dropNewline after, ?_, ⟨fun h => ?_, fun h => ?_⟩, fun h => ?_⟩
  · rw [heq, ← List.append_assoc]
    exact marker_eq_some.2 (.inl (matchThinking_eq_some.2 ⟨body, after, rfl, hbody, rfl, rfl⟩))
  · have hclose : '_' ∉ text.toList := h ▸ hbody
    refine ⟨hclose, fun hmem => ?_⟩
    have hlonger := replaceChar_ne (by decide : 1 < ['\n', '>', ' '].length) hmem
    rw [← hquoted, ← (hfree hclose).1] at hlonger
    exact hlonger h
  · rw [(hfree h.1).1, hquoted, replaceChar_of_not_mem h.2]
  · rw [(hfree h.1).2]
    rfl

theorem marker_toolCall_piece (name input : String) (rest : List Char) :
    (¬ Fits (.toolCall name input) ∧
        reading ((Piece.toolCall name input).render.toList ++ rest) = []) ∨
      ∃ name' input' l', marker ((Piece.toolCall name input).render.toList ++ rest) =
          some (.toolUse name' input', l') ∧
        (name' = name.toList ∧ input' = input.toList ↔ Fits (.toolCall name input)) ∧
          (Fits (.toolCall name input) → l' = ('\n' :: '\n' :: rest).dropWhile isJsSpace) := by
  rw [render_toolCall]
  set preview := (truncateChars input 120).toList with hpreview
  set tail := [' ', '*', '*'] ++ name.toList ++ ['*', '*', ' ', '\x60'] ++
    (preview ++ '\x60' :: '\n' :: '\n' :: rest) with htail
  have hfits : Fits (.toolCall name input) → matchToolSign ('🔧' :: tail) =
      some (.toolUse name.toList input.toList, ('\n' :: '\n' :: rest).dropWhile isJsSpace) := by
    rintro ⟨hname, hstar, htick, hshort⟩
    refine matchToolSign_eq_some.2 ⟨name.toList, input.toList, '\n' :: '\n' :: rest, ?_,
      hname, hstar, htick, rfl, rfl⟩
    rw [htail, hpreview, hshort, List.append_assoc _ input.toList]
    rfl
  cases hsign : matchToolSign ('🔧' :: tail) with
  | none =>
    refine .inl ⟨fun h => ?_, ?_⟩
    · rw [hfits h] at hsign
      cases hsign
    · rw [reading_sign (by decide) (.inl (by decide)), hsign]
  | some x =>
    obtain ⟨s, l'⟩ := x
    obtain ⟨name', input', after, heq, hname', hstar', htick', rfl, rfl⟩ :=
      matchToolSign_eq_some.1 hsign
    refine .inr ⟨name', input', after.dropWhile isJsSpace, ?_, ⟨?_, fun h => ?_⟩, fun h => ?_⟩
    · exact marker_eq_some.2 (.inr (.inr (.inr (matchTool_eq_some.2
        ⟨['\n', '\n'], by decide, _, rfl, hsign⟩))))
    · rintro ⟨rfl, rfl⟩
      have htick : '\x60' ∉ preview := by
        intro hmem
        rcases mem_truncateChars hmem with hmem | hmem
        · exact htick' hmem
        · exact absurd hmem (by decide)
      have hcall : preview ++ '\x60' :: '\n' :: '\n' :: rest = input.toList ++ '\x60' :: after := by
        rw [htail, List.append_assoc _ input.toList] at heq
        change ['🔧', ' ', '*', '*'] ++ name.toList ++ ['*', '*', ' ', '\x60'] ++ _ = _ at heq
        exact append_cancel_left heq
      have hsplit := splitAtFirst_singleton htick ('\n' :: '\n' :: rest)
      rw [hcall, splitAtFirst_singleton htick'] at hsplit
      obtain ⟨hsame, -⟩ := Prod.mk.inj (some.inj hsplit)
      exact ⟨hname', hstar', htick', String.toList_inj.1 hsame.symm⟩
    · rw [hfits h] at hsign
      obtain ⟨hcall, -⟩ := Prod.mk.inj (some.inj hsign)
      cases hcall
      exact ⟨rfl, rfl⟩
    · rw [hfits h] at hsign
      exact (Prod.mk.inj (some.inj hsign)).2.symm

theorem marker_toolResult_piece (isError : Bool) (output : String) (rest : List Char) :
    ∃ shown, marker ((Piece.toolResult isError output).render.toList ++ rest) =
        some (.toolResult (!isError) shown, rest) ∧
      (shown = (truncateChars output 300).toList ↔ Fits (.toolResult isError output)) := by
  set shown := (replaceChar '\n' [' '] (truncateChars output 300)).toList with hshown
  have hbreak : '\n' ∉ shown := by
    intro hmem
    rcases mem_replaceChar hmem with hmem | ⟨-, hne⟩
    · exact absurd hmem (by decide)
    · exact hne rfl
  have hsplit : splitAtFirst ['_', ' ', '\n', '\n'] (shown ++ ['_', ' ', '\n', '\n'] ++ rest) =
      some (shown, rest) := by
    refine splitAtFirst_eq_some (cons_ne_nil _ _) fun s t ht hne hpre => ?_
    -- the closing line breaks would have to stand in the output
    have hmem : ∀ c ∈ t, c ∈ shown := fun c hc => ht ▸ mem_append_right s hc
    rcases t with _ | ⟨c, _ | ⟨d, _ | ⟨e, t⟩⟩⟩
    · exact hne rfl
    · simp at hpre
    · simp at hpre
    · simp only [cons_append, cons_prefix_cons] at hpre
      exact hbreak (hpre.2.2.1 ▸ hmem e (by simp))
  have hmatch : ∀ success icon, matchResult success icon
      ([icon, ' ', '_'] ++ (shown ++ ['_', ' ', '\n', '\n'] ++ rest)) =
        some (.toolResult success shown, rest) := by
    intro success icon
    unfold matchResult
    rw [isPrefixOf?_eq_some_iff.2 rfl, bind_some, hsplit]
    rfl
  refine ⟨shown, ?_, fun h hmem => hbreak (h ▸ hmem), fun h => replaceChar_of_not_mem h _⟩
  rw [render_toolResult]
  cases isError
  · exact marker_eq_some.2 (.inr (.inl (hmatch true '✓')))
  · exact marker_eq_some.2 (.inr (.inr (.inl (hmatch false '❌'))))

/-! ## What is read of all pieces -/

variable {pieces : List Piece}

theorem AnswersPlain.tail {piece : Piece}
    (h : AnswersPlain (piece :: pieces)) : AnswersPlain pieces :=
  fun text hmem => h text (mem_cons_of_mem _ hmem)

theorem dropWhile_space_of_plain (h : Plain text) (rest : List Char) :
    (text ++ rest).dropWhile isJsSpace = rest.dropWhile isJsSpace ∨
      ∃ c r, (text ++ rest).dropWhile isJsSpace = c :: r ∧ c ∉ signs := by
  rw [dropWhile_append]
  cases hdrop : text.dropWhile isJsSpace with
  | nil => exact .inl rfl
  | cons c r =>
    refine .inr ⟨c, r ++ rest, rfl, h c ?_⟩
    have hmem : c ∈ text.dropWhile isJsSpace := hdrop ▸ mem_cons_self
    exact (dropWhile_sublist _).subset hmem

theorem sign_of_encoded (hplain : AnswersPlain pieces) (h : Plain text) {r : List Char}
    (hr : (text ++ encoded pieces).dropWhile isJsSpace = '🔧' :: r) : toolSign <+: '🔧' :: r := by
  induction pieces generalizing text with
  | nil =>
    rcases dropWhile_space_of_plain h (encoded []) with heq | ⟨c, r', heq, hc⟩
    · rw [heq] at hr
      cases hr
    · rw [heq] at hr
      obtain ⟨rfl, -⟩ := cons.inj hr
      exact absurd (by decide) hc
  | cons piece pieces ih =>
    have hother : (∃ c l, encoded (piece :: pieces) = c :: l ∧ c ≠ '🔧' ∧ isJsSpace c = false) →
        toolSign <+: '🔧' :: r := by
      rintro ⟨c, l, hl, hc, hspace⟩
      rcases dropWhile_space_of_plain h (encoded (piece :: pieces)) with heq | ⟨c', r', heq, hc'⟩
      · rw [heq, hl, dropWhile_cons, if_neg (by rw [hspace]; decide)] at hr
        exact absurd (cons.inj hr).1 hc
      · rw [heq] at hr
        obtain ⟨rfl, -⟩ := cons.inj hr
        exact absurd (by decide) hc'
    cases piece with
    | answer answer =>
      rw [encoded_cons, ← List.append_assoc] at hr
      exact ih hplain.tail (h.append (hplain answer mem_cons_self)) hr
    | thinking thought =>
      rw [encoded_cons, render_thinking] at hother
      exact hother ⟨_, _, rfl, by decide, by decide⟩
    | toolCall name input =>
      rw [encoded_cons, render_toolCall] at hr
      rcases dropWhile_space_of_plain h _ with heq | ⟨c, r', heq, hc⟩
      · rw [heq] at hr
        cases hr
        simp only [List.append_assoc]
        exact prefix_append toolSign _
      · rw [heq] at hr
        obtain ⟨rfl, -⟩ := cons.inj hr
        exact absurd (by decide) hc
    | toolResult isError output =>
      rw [encoded_cons, render_toolResult] at hother
      cases isError
      iterate 2 · exact hother ⟨_, _, rfl, by decide, by decide⟩

theorem piece_cases {piece : Piece} (hpiece : ∀ text, piece ≠ .answer text)
    (hplain : AnswersPlain pieces) : (∀ text, Plain text → Clear text (encoded (piece :: pieces))) ∧
      ∃ s, expectedOf piece = [.inr s] ∧
        ((¬ Fits piece ∧ (reading (encoded (piece :: pieces)) = [] ∨
            ∃ s' x, s' ≠ s ∧ reading (encoded (piece :: pieces)) = .inr s' :: x)) ∨
          (Fits piece ∧ ∃ text x, (∀ c ∈ text, isJsSpace c = true) ∧
            reading (encoded (piece :: pieces)) = .inr s :: x ∧
              trimBehind true x = trimBehind true (reading (text ++ encoded pieces)))) := by
  rw [encoded_cons]
  cases piece with
  | answer text => exact absurd rfl (hpiece text)
  | thinking thought =>
    refine ⟨fun text h => ?_, _, rfl, ?_⟩
    · rw [render_thinking]
      exact clear_head h _ (by decide) (by decide) _
    · obtain ⟨body, l', hmarker, hsame, hrest⟩ := marker_thinking_piece thought (encoded pieces)
      by_cases hfits : Fits (.thinking thought)
      · refine .inr ⟨hfits, ['\n'], reading l', forall_mem_of_all (by decide), ?_,
          by rw [hrest hfits]; rfl⟩
        rw [reading_marker hmarker, hsame.2 hfits]
      · refine .inl
          ⟨hfits, .inr ⟨_, reading l', fun h => hfits (hsame.1 ?_), reading_marker hmarker⟩⟩
        exact BufferedSegment.thinking.inj h
  | toolCall name input =>
    refine ⟨fun text h => ?_, _, rfl, ?_⟩
    · rw [render_toolCall]
      exact clear_head h ['\n', '\n', '🔧'] (by decide) (by decide) _
    · rcases marker_toolCall_piece name input (encoded pieces) with
        ⟨hfits, hread⟩ | ⟨name', input', l', hmarker, hsame, hrest⟩
      · exact .inl ⟨hfits, .inl hread⟩
      · by_cases hfits : Fits (.toolCall name input)
        · obtain ⟨rfl, rfl⟩ := hsame.2 hfits
          refine .inr ⟨hfits, ['\n', '\n'], reading l', forall_mem_of_all (by decide),
            reading_marker hmarker, ?_⟩
          rw [hrest hfits]
          have hbreaks : Plain ['\n', '\n'] := by decide
          exact trimBehind_dropWhile fun r => sign_of_encoded hplain hbreaks
        · refine .inl ⟨hfits, .inr ⟨_, reading l', fun h => hfits (hsame.1 ?_),
            reading_marker hmarker⟩⟩
          exact BufferedSegment.toolUse.inj h
  | toolResult isError output =>
    refine ⟨fun text h => ?_, _, rfl, ?_⟩
    · rw [render_toolResult]
      cases isError
      iterate 2 · exact clear_head h _ (by decide) (by decide) _
    · obtain ⟨shown, hmarker, hsame⟩ := marker_toolResult_piece isError output (encoded pieces)
      by_cases hfits : Fits (.toolResult isError output)
      · refine .inr ⟨hfits, [], _, nofun, ?_, rfl⟩
        rw [reading_marker hmarker, hsame.2 hfits, nil_append]
      · refine .inl ⟨hfits, .inr ⟨_, _, fun h => hfits (hsame.1 ?_), reading_marker hmarker⟩⟩
        exact (BufferedSegment.toolResult.inj h).2

theorem reading_encoded_iff (hplain : AnswersPlain pieces) (h : Plain text) (behind : Bool) :
    trimBehind behind (reading (text ++ encoded pieces)) =
        trimBehind behind (text.map .inl ++ expected pieces) ↔ ∀ piece ∈ pieces, Fits piece := by
  induction pieces generalizing text behind with
  | nil =>
    have hclear : Clear text [] := clear_of_plain h fun m _ z _ hz c hc => by
      rw [prefix_nil.1 hz] at hc
      cases hc
    refine iff_of_true ?_ (forall_mem_nil _)
    exact congrArg (trimBehind behind) (reading_clear hclear)
  | cons piece pieces ih =>
    rw [forall_mem_cons]
    by_cases hanswer : ∃ answer, piece = .answer answer
    · obtain ⟨answer, rfl⟩ := hanswer
      have hmore := h.append (hplain answer mem_cons_self)
      rw [← ih hplain.tail hmore behind, encoded_cons, expected_cons, map_append,
        List.append_assoc, List.append_assoc]
      exact (and_iff_right trivial).symm
    · obtain ⟨hclear, s, hs, hread⟩ := piece_cases (not_exists.1 hanswer) hplain.tail
      rw [reading_clear (hclear text h), expected_cons, hs]
      rcases hread with ⟨hfits, hread | ⟨s', x, hne, hread⟩⟩ | ⟨hfits, text', x, hspace, hread, hx⟩
      · rw [hread, append_nil]
        exact iff_of_false (trimBehind_text_ne text) fun hall => hfits hall.1
      · rw [hread]
        refine iff_of_false (fun heq => hne ?_) fun hall => hfits hall.1
        exact ((trimBehind_marker_inj text).1 heq).1
      · rw [hread, and_iff_right hfits, ← ih hplain.tail (plain_of_space hspace) true,
          trimBehind_spaces hspace, ← hx]
        exact (trimBehind_marker_inj text).trans (and_iff_right rfl)

/-- The client reads what Penny sent just when each piece fits its marker. -/
theorem decode_encode_iff (chunks : List ChatChunk)
    (hplain : AnswersPlain (chunks.filterMap (·.content))) :
    trimBehind false (outline (parseSegments (contentOf chunks).toList true).segments) =
        trimBehind false (expected (chunks.filterMap (·.content))) ↔
      ∀ piece ∈ chunks.filterMap (·.content), Fits piece := by
  rw [toList_contentOf]
  have hnil : Plain [] := by decide
  exact reading_encoded_iff hplain hnil false

/-! ## An underscore in thinking -/

def sampleChunks (pieces : List Piece) : List ChatChunk :=
  pieces.map fun piece => buildChunk (some piece) none

def samplePieces : List Piece :=
  [.answer "on it", .thinking "look", .toolCall "mcp__a" "[1]", .toolResult false "done"]

theorem sample_decoded : AnswersPlain ((sampleChunks samplePieces).filterMap (·.content)) ∧
      trimBehind false (outline (parseSegments (contentOf (sampleChunks samplePieces)).toList
          true).segments) =
        trimBehind false (expected ((sampleChunks samplePieces).filterMap (·.content))) := by
  have hplain : AnswersPlain ((sampleChunks samplePieces).filterMap (·.content)) := by
    intro text hmem
    obtain rfl : text = "on it" := by simpa [sampleChunks, samplePieces, buildChunk] using hmem
    decide
  refine ⟨hplain, (decode_encode_iff _ hplain).2 fun piece hpiece => ?_⟩
  have hcases : piece ∈ samplePieces := hpiece
  simp only [samplePieces, mem_cons, not_mem_nil, or_false] at hcases
  rcases hcases with rfl | rfl | rfl | rfl
  · trivial
  · exact ⟨by decide, by decide⟩
  · exact ⟨by decide, by decide, by decide, by decide⟩
  · exact (by decide : '\n' ∉ (truncateChars "done" 300).toList)

theorem sample_underscore : trimBehind false (outline (parseSegments
        (contentOf (sampleChunks [.thinking "a_b"])).toList true).segments) ≠
      trimBehind false (expected ((sampleChunks [.thinking "a_b"]).filterMap (·.content))) := by
  decide

end Gadgetron.Web
