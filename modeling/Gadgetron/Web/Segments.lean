import Gadgetron.Lib.Lines

/-!
# Segments of assistant content

The web client reads the content of a message as segments: texts, and what Penny set in markers,
that is thinking, tool calls and tool results.
-/

namespace Gadgetron.Web

open Lib List Option

inductive BufferedSegment
  | text (text : List Char)
  | thinking (text : List Char)
  | toolUse (name input : List Char)
  | toolResult (success : Bool) (output : List Char)
  deriving DecidableEq

/-- The class `\s` of a regular expression. -/
def isJsSpace (c : Char) : Bool :=
  let n := c.toNat
  (9 ≤ n && n ≤ 13) || n == 0x20 || n == 0xa0 || n == 0x1680 || (0x2000 ≤ n && n ≤ 0x200a) ||
    n == 0x2028 || n == 0x2029 || n == 0x202f || n == 0x205f || n == 0x3000 || n == 0xfeff

/-! ## Markers -/

def dropNewline : List Char → List Char
  | '\n' :: rest => rest
  | rest => rest

/-- `^> 💭 _([\s\S]*?)_\n?` -/
def matchThinking (rest : List Char) : Option (BufferedSegment × List Char) :=
  (['>', ' ', '💭', ' ', '_'].isPrefixOf? rest).bind fun body =>
    (splitAtFirst ['_'] body).map fun (text, after) => (.thinking text, dropNewline after)

/-- `^✓ _([\s\S]*?)_ \n\n` and `^❌ _([\s\S]*?)_ \n\n`. -/
def matchResult (success : Bool) (icon : Char) (rest : List Char) :
    Option (BufferedSegment × List Char) :=
  ([icon, ' ', '_'].isPrefixOf? rest).bind fun body =>
    (splitAtFirst ['_', ' ', '\n', '\n'] body).map fun (output, after) =>
      (.toolResult success output, after)

def matchToolSign (rest : List Char) : Option (BufferedSegment × List Char) :=
  (['🔧', ' ', '*', '*'].isPrefixOf? rest).bind fun body =>
    let name := body.takeWhile (· ≠ '*')
    if name = [] then none
    else
      (['*', '*', ' ', '\x60'].isPrefixOf? (body.dropWhile (· ≠ '*'))).bind fun call =>
        (splitAtFirst ['\x60'] call).map fun (input, after) =>
          (.toolUse name input, after.dropWhile isJsSpace)

/-- ``^(?:\n{1,2})?🔧 \*\*([^*]+)\*\* `([^`]*)`\s*\n?\n?``; the blank lines at its end are taken by
`\s*` already. -/
def matchTool : List Char → Option (BufferedSegment × List Char)
  | '\n' :: '\n' :: rest => matchToolSign rest
  | '\n' :: rest => matchToolSign rest
  | rest => matchToolSign rest

/-- The marker at the front, if a complete one stands there. -/
def marker (rest : List Char) : Option (BufferedSegment × List Char) :=
  matchThinking rest <|> matchResult true '✓' rest <|> matchResult false '❌' rest <|> matchTool rest

/-- What `findNextMarker` looks for. -/
def markerStarts : List (List Char) :=
  [['>', ' ', '💭'], ['\n', '\n', '🔧'], ['\n', '🔧'], ['🔧', ' ', '*', '*'], ['✓', ' ', '_'],
    ['❌', ' ', '_']]

def startsMarker (rest : List Char) : Bool := markerStarts.any (·.isPrefixOf rest)

def findNextMarker : List Char → Option ℕ
  | [] => none
  | c :: rest =>
    if startsMarker (c :: rest) then some 0 else (findNextMarker rest).map (· + 1)

/-- What `findSafeTextTail` looks for; a cut inside of a surrogate pair equals no end of a buffer.
-/
def tailStarts : List (List Char) :=
  [['>', ' ', '💭'], ['\n', '🔧'], ['🔧', ' ', '*', '*'], ['✓', ' ', '_'], ['❌', ' ', '_']]

def startsTail (rest : List Char) : Bool :=
  tailStarts.any fun m => rest.isPrefixOf m && decide (rest.length < m.length)

/-- The least index from which on the buffer begins a marker. -/
def findSafeTextTail : List Char → ℕ
  | [] => 0
  | c :: rest => if startsTail (c :: rest) then 0 else findSafeTextTail rest + 1

/-! ## The loop -/

/-- The loop of `parseSegments`: the segments, and what is not consumed.  Each turn consumes a
character at least. -/
def parseLoop (final : Bool) : ℕ → List Char → List BufferedSegment × List Char
  | 0, rest => ([], rest)
  | _ + 1, [] => ([], [])
  | fuel + 1, c :: rest =>
    match marker (c :: rest) with
    | some (segment, rest) =>
      let (segments, left) := parseLoop final fuel rest
      (segment :: segments, left)
    | none =>
      match findNextMarker (c :: rest) with
      | none =>
        if final then
          ([.text (c :: rest)], [])
        else
          let safe := findSafeTextTail (c :: rest)
          (if 0 < safe then [.text ((c :: rest).take safe)] else [], (c :: rest).drop safe)
      | some next =>
        if 0 < next then
          let (segments, left) := parseLoop final fuel ((c :: rest).drop next)
          (.text ((c :: rest).take next) :: segments, left)
        else
          ([], c :: rest)

structure Parsed where
  segments : List BufferedSegment
  left : List Char

def parseSegments (buffer : List Char) (final : Bool) : Parsed :=
  let (segments, left) := parseLoop final buffer.length buffer
  ⟨segments, left⟩

def Parsed.consumed (parsed : Parsed) (buffer : List Char) : ℕ := buffer.length - parsed.left.length

/-! ## What markers look like -/

variable {s : BufferedSegment} {l l' : List Char}

theorem matchThinking_eq_some : matchThinking l = some (s, l') ↔ ∃ text after,
      l = ['>', ' ', '💭', ' ', '_'] ++ text ++ '_' :: after ∧ '_' ∉ text ∧ s = .thinking text ∧
        l' = dropNewline after := by
  unfold matchThinking
  rw [bind_eq_some_iff]
  constructor
  · rintro ⟨body, hbody, h⟩
    obtain ⟨⟨text, after⟩, hsplit, h⟩ := map_eq_some_iff.1 h
    cases h
    refine ⟨text, after, ?_, not_mem_of_splitAtFirst hsplit, rfl, rfl⟩
    rw [isPrefixOf?_eq_some_iff.1 hbody, eq_of_splitAtFirst hsplit]
    simp
  · rintro ⟨text, after, rfl, htext, rfl, rfl⟩
    refine ⟨text ++ '_' :: after, isPrefixOf?_eq_some_iff.2 (by simp), ?_⟩
    rw [splitAtFirst_singleton htext]
    rfl

theorem matchResult_eq_some {success : Bool} {icon : Char}
    (h : matchResult success icon l = some (s, l')) : ∃ output,
      l = [icon, ' ', '_'] ++ output ++ ['_', ' ', '\n', '\n'] ++ l' ∧
        s = .toolResult success output := by
  obtain ⟨body, hbody, h⟩ := bind_eq_some_iff.1 h
  obtain ⟨⟨output, after⟩, hsplit, h⟩ := map_eq_some_iff.1 h
  cases h
  refine ⟨output, ?_, rfl⟩
  rw [isPrefixOf?_eq_some_iff.1 hbody, eq_of_splitAtFirst hsplit]
  simp

theorem matchResult_append {success : Bool} {icon : Char}
    (h : matchResult success icon l = some (s, l')) (r : List Char) :
    matchResult success icon (l ++ r) = some (s, l' ++ r) := by
  obtain ⟨body, hbody, h⟩ := bind_eq_some_iff.1 h
  obtain ⟨⟨output, after⟩, hsplit, h⟩ := map_eq_some_iff.1 h
  cases h
  have hbody' : [icon, ' ', '_'].isPrefixOf? (l ++ r) = some (body ++ r) := by
    rw [isPrefixOf?_eq_some_iff, isPrefixOf?_eq_some_iff.1 hbody, List.append_assoc]
  unfold matchResult
  rw [hbody', bind_some, splitAtFirst_append hsplit]
  rfl

theorem matchToolSign_eq_some : matchToolSign l = some (s, l') ↔ ∃ name input after,
      l = ['🔧', ' ', '*', '*'] ++ name ++ ['*', '*', ' ', '\x60'] ++ input ++ '\x60' :: after ∧
        name ≠ [] ∧ '*' ∉ name ∧ '\x60' ∉ input ∧ s = .toolUse name input ∧
          l' = after.dropWhile isJsSpace := by
  unfold matchToolSign
  rw [bind_eq_some_iff]
  constructor
  · rintro ⟨body, hbody, h⟩
    dsimp only at h
    split_ifs at h with hname
    obtain ⟨call, hcall, h⟩ := bind_eq_some_iff.1 h
    obtain ⟨⟨input, after⟩, hsplit, h⟩ := map_eq_some_iff.1 h
    cases h
    refine ⟨body.takeWhile (· ≠ '*'), input, after, ?_, hname, ?_, not_mem_of_splitAtFirst hsplit,
      rfl, rfl⟩
    · rw [isPrefixOf?_eq_some_iff.1 hbody]
      conv_lhs => rw [← List.takeWhile_append_dropWhile (p := (· ≠ '*')) (l := body),
        isPrefixOf?_eq_some_iff.1 hcall, eq_of_splitAtFirst hsplit]
      simp
    · intro hmem
      simpa using mem_takeWhile_imp hmem
  · rintro ⟨name, input, after, rfl, hname, hstar, htick, rfl, rfl⟩
    refine ⟨name ++ ['*', '*', ' ', '\x60'] ++ input ++ '\x60' :: after,
      isPrefixOf?_eq_some_iff.2 (by simp), ?_⟩
    have hall : ∀ c ∈ name, decide (c ≠ '*') = true := fun c hc =>
      decide_eq_true fun heq => hstar (heq ▸ hc)
    have htake : (name ++ ['*', '*', ' ', '\x60'] ++ input ++ '\x60' :: after).takeWhile (· ≠ '*') =
        name := by
      simp only [List.append_assoc]
      rw [takeWhile_append_of_pos hall]
      simp
    have hdrop : (name ++ ['*', '*', ' ', '\x60'] ++ input ++ '\x60' :: after).dropWhile (· ≠ '*') =
        ['*', '*', ' ', '\x60'] ++ (input ++ '\x60' :: after) := by
      simp only [List.append_assoc]
      rw [dropWhile_append_of_pos hall]
      simp
    dsimp only
    rw [htake, hdrop, if_neg hname, isPrefixOf?_eq_some_iff.2 rfl, bind_some,
      splitAtFirst_singleton htick]
    rfl

theorem marker_eq_some : marker l = some (s, l') ↔
    matchThinking l = some (s, l') ∨ matchResult true '✓' l = some (s, l') ∨
      matchResult false '❌' l = some (s, l') ∨ matchTool l = some (s, l') := by
  have hresult : ∀ {success icon x}, matchResult success icon l = some x →
      ∃ rest, l = icon :: rest := by
    rintro success icon ⟨s, l'⟩ h
    obtain ⟨output, rfl, -⟩ := matchResult_eq_some h
    exact ⟨_, rfl⟩
  have htool : ∀ {x}, matchTool l = some x → ∃ c rest, l = c :: rest ∧ (c = '\n' ∨ c = '🔧') := by
    rintro ⟨s, l'⟩ h
    have hsign : ∀ {rest}, matchToolSign rest = some (s, l') → ∃ tail, rest = '🔧' :: tail := by
      intro rest h
      obtain ⟨name, input, after, rfl, -⟩ := matchToolSign_eq_some.1 h
      exact ⟨_, rfl⟩
    unfold matchTool at h
    split at h
    · exact ⟨_, _, rfl, .inl rfl⟩
    · exact ⟨_, _, rfl, .inl rfl⟩
    · obtain ⟨tail, rfl⟩ := hsign h
      exact ⟨_, _, rfl, .inr rfl⟩
  constructor
  · intro h
    unfold marker at h
    cases hthinking : matchThinking l with
    | some x =>
      rw [hthinking] at h
      exact .inl h
    | none =>
      cases hok : matchResult true '✓' l with
      | some x =>
        rw [hthinking, hok] at h
        exact .inr (.inl h)
      | none =>
        cases herror : matchResult false '❌' l with
        | some x =>
          rw [hthinking, hok, herror] at h
          exact .inr (.inr (.inl h))
        | none =>
          rw [hthinking, hok, herror] at h
          exact .inr (.inr (.inr h))
  · rintro (h | h | h | h)
    · unfold marker
      rw [h]
      rfl
    iterate 2
      · obtain ⟨rest, rfl⟩ := hresult h
        unfold marker
        rw [h]
        rfl
    · obtain ⟨c, rest, rfl, rfl | rfl⟩ := htool h
      · unfold marker
        rw [h]
        rfl
      · unfold marker
        rw [h]
        rfl

/-- The blank lines that may stand before the sign of a tool call. -/
def toolBreaks : List (List Char) := [[], ['\n'], ['\n', '\n']]

theorem mem_toolBreaks {breaks : List Char} :
    breaks ∈ toolBreaks ↔ breaks = [] ∨ breaks = ['\n'] ∨ breaks = ['\n', '\n'] := by
  simp [toolBreaks]

theorem matchTool_eq_some : matchTool l = some (s, l') ↔
      ∃ breaks ∈ toolBreaks, ∃ rest, l = breaks ++ rest ∧ matchToolSign rest = some (s, l') := by
  constructor
  · intro h
    unfold matchTool at h
    split at h
    · exact ⟨['\n', '\n'], by decide, _, rfl, h⟩
    · exact ⟨['\n'], by decide, _, rfl, h⟩
    · exact ⟨[], by decide, _, rfl, h⟩
  · rintro ⟨breaks, hbreaks, rest, rfl, h⟩
    obtain ⟨name, input, after, rfl, -⟩ := matchToolSign_eq_some.1 h
    rcases mem_toolBreaks.1 hbreaks with rfl | rfl | rfl <;> exact h

/-! ## More text behind a marker -/

/-- What is left of a longer buffer: an end of a marker that may take more takes more. -/
def resume (s : BufferedSegment) (l l' r : List Char) : List Char :=
  if l' ≠ [] then l' ++ r
  else
    match s with
    | .thinking _ => if l.getLast? = some '_' then dropNewline r else r
    | .toolUse _ _ => r.dropWhile isJsSpace
    | _ => r

theorem resume_toolResult (success : Bool) (output l l' r : List Char) :
    resume (.toolResult success output) l l' r = l' ++ r := by
  unfold resume
  by_cases hnil : l' = []
  · rw [if_neg (not_not.2 hnil), hnil, nil_append]
  · rw [if_pos hnil]

theorem matchToolSign_append (h : matchToolSign l = some (s, l')) (r : List Char) :
    matchToolSign (l ++ r) = some (s, if l' ≠ [] then l' ++ r else r.dropWhile isJsSpace) := by
  obtain ⟨name, input, after, rfl, hname, hstar, htick, rfl, rfl⟩ := matchToolSign_eq_some.1 h
  refine matchToolSign_eq_some.2 ⟨name, input, after ++ r, by simp, hname, hstar, htick, rfl, ?_⟩
  rw [dropWhile_append]
  by_cases hnil : after.dropWhile isJsSpace = [] <;> simp [hnil]

theorem marker_append (h : marker l = some (s, l'))
    (r : List Char) : marker (l ++ r) = some (s, resume s l l' r) := by
  rcases marker_eq_some.1 h with h | h | h | h
  · refine marker_eq_some.2 (.inl ?_)
    obtain ⟨text, after, rfl, htext, rfl, rfl⟩ := matchThinking_eq_some.1 h
    refine matchThinking_eq_some.2 ⟨text, after ++ r, by simp, htext, rfl, ?_⟩
    unfold resume
    rw [getLast?_append_of_ne_nil _ (cons_ne_nil _ _)]
    rcases after with _ | ⟨c, after⟩
    · simp [dropNewline]
    · by_cases hc : c = '\n'
      · subst hc
        rcases after with _ | ⟨d, after⟩
        · simp [dropNewline]
        · rfl
      · have hkeep : ∀ rest, dropNewline (c :: rest) = c :: rest := by
          intro rest
          unfold dropNewline
          split
          · rename_i heq
            exact absurd (cons.inj heq).1 hc
          · rfl
        simp [hkeep]
  · refine marker_eq_some.2 (.inr (.inl ?_))
    obtain ⟨output, -, rfl⟩ := matchResult_eq_some h
    rw [matchResult_append h, resume_toolResult]
  · refine marker_eq_some.2 (.inr (.inr (.inl ?_)))
    obtain ⟨output, -, rfl⟩ := matchResult_eq_some h
    rw [matchResult_append h, resume_toolResult]
  · refine marker_eq_some.2 (.inr (.inr (.inr ?_)))
    obtain ⟨breaks, hbreaks, rest, rfl, hsign⟩ := matchTool_eq_some.1 h
    refine matchTool_eq_some.2 ⟨breaks, hbreaks, rest ++ r, List.append_assoc _ _ _, ?_⟩
    obtain ⟨name, input, after, -, -, -, -, rfl, -⟩ := matchToolSign_eq_some.1 hsign
    exact matchToolSign_append hsign r

theorem length_marker (h : marker l = some (s, l')) : l'.length < l.length := by
  have hnewline : ∀ l : List Char, (dropNewline l).length ≤ l.length := by
    intro l
    unfold dropNewline
    split <;> simp
  rcases marker_eq_some.1 h with h | h | h | h
  · obtain ⟨text, after, rfl, -, -, rfl⟩ := matchThinking_eq_some.1 h
    have := hnewline after
    simp only [List.length_append, length_cons]
    omega
  iterate 2
    · obtain ⟨output, rfl, -⟩ := matchResult_eq_some h
      simp only [List.length_append, length_cons]
      omega
  · obtain ⟨breaks, -, rest, rfl, hsign⟩ := matchTool_eq_some.1 h
    obtain ⟨name, input, after, rfl, -, -, -, -, rfl⟩ := matchToolSign_eq_some.1 hsign
    have := length_dropWhile_le isJsSpace after
    simp only [List.length_append, length_cons]
    omega

theorem startsMarker_of_marker (h : marker l = some (s, l')) : startsMarker l = true := by
  rcases marker_eq_some.1 h with h | h | h | h
  · obtain ⟨text, after, rfl, -⟩ := matchThinking_eq_some.1 h
    rfl
  iterate 2
    · obtain ⟨output, rfl, -⟩ := matchResult_eq_some h
      rfl
  · obtain ⟨breaks, hbreaks, rest, rfl, hsign⟩ := matchTool_eq_some.1 h
    obtain ⟨name, input, after, rfl, -⟩ := matchToolSign_eq_some.1 hsign
    rcases mem_toolBreaks.1 hbreaks with rfl | rfl | rfl <;> rfl

/-! ## Text before a marker -/

/-- No start of a marker stands in `t` when `r` follows it. -/
def Clear : List Char → List Char → Prop
  | [], _ => True
  | c :: t, r => startsMarker (c :: (t ++ r)) = false ∧ Clear t r

theorem clear_append_iff {t t' r : List Char} :
    Clear (t ++ t') r ↔ Clear t (t' ++ r) ∧ Clear t' r := by
  induction t with
  | nil => exact ⟨fun h => ⟨trivial, h⟩, fun h => h.2⟩
  | cons c t ih =>
    rw [cons_append, Clear, Clear, ih, List.append_assoc, and_assoc]

variable {l : List Char}

theorem findNextMarker_eq_none : findNextMarker l = none ↔ Clear l [] := by
  induction l with
  | nil => exact iff_of_true rfl trivial
  | cons c l ih =>
    rw [findNextMarker, Clear, append_nil, ← ih]
    cases startsMarker (c :: l) <;> simp

theorem findNextMarker_append {t r : List Char} (h : Clear t r) (hr : startsMarker r = true) :
    findNextMarker (t ++ r) = some t.length := by
  induction t with
  | nil =>
    rcases r with _ | ⟨c, r⟩
    · cases hr
    · rw [nil_append, findNextMarker, if_pos hr]
      rfl
  | cons c t ih =>
    rw [cons_append, findNextMarker, h.1, ih h.2]
    rfl

theorem exists_of_findNextMarker {n : ℕ} (h : findNextMarker l = some n) :
    ∃ t r, l = t ++ r ∧ t.length = n ∧ Clear t r ∧ startsMarker r = true := by
  induction l generalizing n with
  | nil => cases h
  | cons c l ih =>
    rw [findNextMarker] at h
    split_ifs at h with hstart
    · cases h
      exact ⟨[], c :: l, rfl, rfl, trivial, hstart⟩
    · obtain ⟨m, hm, rfl⟩ := map_eq_some_iff.1 h
      obtain ⟨t, r, rfl, rfl, hclear, hr⟩ := ih hm
      exact ⟨c :: t, r, rfl, rfl, ⟨Bool.eq_false_iff.2 hstart, hclear⟩, hr⟩

theorem marker_eq_none (h : startsMarker l = false) : marker l = none := by
  cases hm : marker l with
  | none => rfl
  | some x =>
    obtain ⟨s, l'⟩ := x
    rw [startsMarker_of_marker hm] at h
    cases h

/-! ## Turns of the loop -/

attribute [local simp] parseLoop

theorem parseLoop_congr {final : Bool} {n m : ℕ} (hn : l.length ≤ n)
    (hm : l.length ≤ m) : parseLoop final n l = parseLoop final m l := by
  induction n generalizing m l with
  | zero =>
    rw [List.length_eq_zero_iff.1 (Nat.le_zero.1 hn)]
    cases m <;> rfl
  | succ n ih =>
    cases l with
    | nil => cases m <;> rfl
    | cons c l =>
      cases m with
      | zero => exact absurd hm (Nat.not_succ_le_zero _)
      | succ m =>
        rw [parseLoop, parseLoop]
        rw [length_cons] at hn hm
        cases hmarker : marker (c :: l) with
        | some x =>
          obtain ⟨s, l'⟩ := x
          have hshort := length_marker hmarker
          rw [length_cons] at hshort
          dsimp only
          rw [ih (m := m) (by omega) (by omega)]
        | none =>
          dsimp only
          cases hnext : findNextMarker (c :: l) with
          | none => rfl
          | some next =>
            dsimp only
            split_ifs with hpos
            · have hshort : ((c :: l).drop next).length ≤ l.length := by
                rw [length_drop, length_cons]
                omega
              rw [ih (m := m) (hshort.trans (by omega)) (hshort.trans (by omega))]
            · rfl

theorem parseSegments_eq {final : Bool} {n : ℕ} (hn : l.length ≤ n) :
    parseLoop final n l = ((parseSegments l final).segments, (parseSegments l final).left) :=
  parseLoop_congr hn le_rfl

section

variable {final : Bool} {l l' t r : List Char} {s : BufferedSegment}

theorem parseSegments_marker (h : marker l = some (s, l')) : parseSegments l final =
    ⟨s :: (parseSegments l' final).segments, (parseSegments l' final).left⟩ := by
  have hshort := length_marker h
  rcases l with _ | ⟨c, l⟩
  · exact absurd hshort (Nat.not_lt_zero _)
  · unfold parseSegments
    rw [length_cons, parseLoop, h]
    dsimp only
    rw [parseSegments_eq (Nat.le_of_lt_succ hshort)]
    rfl

theorem parseSegments_stuck (h : marker l = none) (hstart : startsMarker l = true) :
    parseSegments l final = ⟨[], l⟩ := by
  rcases l with _ | ⟨c, l⟩
  · rfl
  · unfold parseSegments
    rw [length_cons, parseLoop, h, findNextMarker, if_pos hstart]
    rfl

theorem parseSegments_text (ht : t ≠ []) (h : Clear t r) (hr : startsMarker r = true) :
    parseSegments (t ++ r) final =
      ⟨.text t :: (parseSegments r final).segments, (parseSegments r final).left⟩ := by
  obtain ⟨c, t, rfl⟩ := exists_cons_of_ne_nil ht
  unfold parseSegments
  rw [cons_append, length_cons, parseLoop, marker_eq_none h.1]
  have hnext := findNextMarker_append h hr
  rw [cons_append, length_cons] at hnext
  rw [hnext]
  dsimp only
  rw [if_pos (Nat.succ_pos _)]
  have htake : (c :: (t ++ r)).take (t.length + 1) = c :: t := by simp
  have hdrop : (c :: (t ++ r)).drop (t.length + 1) = r := by simp
  rw [htake, hdrop, parseSegments_eq (by rw [List.length_append]; omega)]
  rfl

theorem parseSegments_last (hl : l ≠ []) (h : Clear l []) :
    parseSegments l true = ⟨[.text l], []⟩ := by
  obtain ⟨c, l, rfl⟩ := exists_cons_of_ne_nil hl
  have hstart := h.1
  rw [append_nil] at hstart
  unfold parseSegments
  rw [length_cons, parseLoop, marker_eq_none hstart, findNextMarker_eq_none.2 h]
  rfl

theorem parseSegments_tail (hl : l ≠ []) (h : Clear l []) : parseSegments l false =
      ⟨if 0 < findSafeTextTail l then [.text (l.take (findSafeTextTail l))] else [],
        l.drop (findSafeTextTail l)⟩ := by
  obtain ⟨c, l, rfl⟩ := exists_cons_of_ne_nil hl
  have hstart := h.1
  rw [append_nil] at hstart
  unfold parseSegments
  rw [length_cons, parseLoop, marker_eq_none hstart, findNextMarker_eq_none.2 h]
  rfl

theorem parse_cases (l : List Char) :
    l = [] ∨ (∃ s l', marker l = some (s, l')) ∨ (marker l = none ∧ startsMarker l = true) ∨
      (∃ t r, l = t ++ r ∧ t ≠ [] ∧ Clear t r ∧ startsMarker r = true) ∨ (l ≠ [] ∧ Clear l []) := by
  rcases l with _ | ⟨c, l⟩
  · exact .inl rfl
  · refine .inr ?_
    cases hmarker : marker (c :: l) with
    | some x => exact .inl ⟨x.1, x.2, rfl⟩
    | none =>
      refine .inr ?_
      cases hnext : findNextMarker (c :: l) with
      | none => exact .inr (.inr ⟨cons_ne_nil _ _, findNextMarker_eq_none.1 hnext⟩)
      | some n =>
        obtain ⟨t, r, hl, -, hclear, hr⟩ := exists_of_findNextMarker hnext
        rcases t with _ | ⟨d, t⟩
        · rw [nil_append] at hl
          exact .inl ⟨rfl, hl ▸ hr⟩
        · exact .inr (.inl ⟨d :: t, r, hl, cons_ne_nil _ _, hclear, hr⟩)

end

end Gadgetron.Web
