import Gadgetron.Lib.Lines

/-!
# The words of a text

A text over an arbitrary alphabet is made of words and of the blanks `ws` between them.
-/

namespace Lib

open List

variable {α : Type*} {ws : α → Bool}

/-- `str::split_whitespace`. -/
def words (ws : α → Bool) (text : List α) : List (List α) :=
  (text.splitOnP ws).filter fun word => !word.isEmpty

@[simp] theorem words_nil : words ws [] = [] := rfl

theorem words_append_blank {c : α} (hc : ws c = true) (a b : List α) :
    words ws (a ++ c :: b) = words ws a ++ words ws b := by
  unfold words
  rw [splitOnP_append_cons a b hc, filter_append]

theorem words_cons_blank {c : α} (hc : ws c = true) (text : List α) :
    words ws (c :: text) = words ws text :=
  words_append_blank hc [] text

/-! ## Seams -/

/-- A text to which another can be joined: it is empty or ends in a blank. -/
def Closed (ws : α → Bool) (text : List α) : Prop := ∀ c ∈ text.getLast?, ws c = true

theorem closed_nil : Closed ws [] := by
  intro c hc
  cases hc

theorem closed_concat {c : α} (hc : ws c = true) (text : List α) : Closed ws (text ++ [c]) := by
  intro d hd
  rw [getLast?_concat, Option.mem_some_iff] at hd
  exact hd ▸ hc

theorem Closed.append {a b : List α} (ha : Closed ws a) (hb : Closed ws b) :
    Closed ws (a ++ b) := by
  intro c hc
  rw [getLast?_append] at hc
  rcases hlast : b.getLast? with _ | d
  · exact ha c (by simpa [hlast] using hc)
  · exact hb c (by simpa [hlast] using hc)

theorem words_append {a : List α} (ha : Closed ws a) (b : List α) :
    words ws (a ++ b) = words ws a ++ words ws b := by
  induction a using List.reverseRecOn with
  | nil => rfl
  | append_singleton a c _ =>
    have hc : ws c = true := ha c (by rw [getLast?_concat]; rfl)
    have hlast : words ws (a ++ [c]) = words ws a := by
      rw [words_append_blank hc, words_nil, append_nil]
    rw [hlast, List.append_assoc, singleton_append, words_append_blank hc]

theorem words_flatten {texts : List (List α)} (h : texts.Pairwise fun a _ => Closed ws a) :
    words ws texts.flatten = texts.flatMap (words ws) := by
  induction texts with
  | nil => rfl
  | cons a texts ih =>
    obtain ⟨ha, htexts⟩ := pairwise_cons.1 h
    rw [flatten_cons, flatMap_cons, ← ih htexts]
    rcases texts with _ | ⟨b, texts⟩
    · rw [flatten_nil, append_nil, words_nil, append_nil]
    · exact words_append (ha b mem_cons_self) _

/-! ## The lines of a text -/

theorem pairwise_closed_splitInclusive [DecidableEq α] {nl : α} (hnl : ws nl = true)
    (text : List α) : (splitInclusive nl text).Pairwise fun a _ => Closed ws a := by
  induction text using line_induction nl with
  | last l hl =>
    rcases l with _ | ⟨c, l⟩
    · exact .nil
    · rw [splitInclusive_of_notMem hl (cons_ne_nil c l)]
      exact pairwise_singleton _ _
  | cons l rest hl ih =>
    rw [splitInclusive_append_cons hl]
    exact .cons (fun b _ => closed_concat hnl l) ih

theorem flatten_splitInclusive [DecidableEq α] (nl : α) (text : List α) :
    (splitInclusive nl text).flatten = text := by
  induction text using line_induction nl with
  | last l hl =>
    rcases l with _ | ⟨c, l⟩
    · rfl
    · rw [splitInclusive_of_notMem hl (cons_ne_nil c l), flatten_singleton]
  | cons l rest hl ih =>
    rw [splitInclusive_append_cons hl, flatten_cons, ih, List.append_assoc, singleton_append]

/-! ## Blanks at the ends -/

/-- `str::trim`. -/
def strip (ws : α → Bool) (text : List α) : List α := (text.dropWhile ws).rdropWhile ws

theorem words_dropWhile (text : List α) : words ws (text.dropWhile ws) = words ws text := by
  induction text with
  | nil => rfl
  | cons c text ih =>
    rcases hc : ws c with _ | _
    · rw [dropWhile_cons_of_neg (by simp [hc])]
    · rw [dropWhile_cons_of_pos hc, ih, words_cons_blank hc]

theorem words_rdropWhile (text : List α) : words ws (text.rdropWhile ws) = words ws text := by
  induction text using List.reverseRecOn with
  | nil => rfl
  | append_singleton text c ih =>
    rw [rdropWhile_concat]
    split_ifs with hc
    · rw [ih, words_append_blank hc, words_nil, append_nil]
    · rfl

theorem words_strip (text : List α) : words ws (strip ws text) = words ws text := by
  rw [strip, words_rdropWhile, words_dropWhile]

theorem words_eq_nil_of_strip {text : List α} (h : strip ws text = []) : words ws text = [] := by
  rw [← words_strip, h, words_nil]

variable {mark text : List α}

theorem prefix_rdropWhile {p : α → Bool} (h : mark <+: text)
    (hmark : ∀ c ∈ mark.getLast?, p c = false) : mark <+: text.rdropWhile p := by
  obtain ⟨rest, rfl⟩ := h
  induction rest using List.reverseRecOn with
  | nil =>
    have hself : mark.rdropWhile p = mark := rdropWhile_eq_self_iff.2 fun hne => by
      rw [hmark _ (getLast_mem_getLast? hne)]
      decide
    simp only [append_nil, hself, prefix_rfl]
  | append_singleton rest c ih =>
    rw [← List.append_assoc, rdropWhile_concat]
    split_ifs
    · exact ih
    · exact (prefix_append _ _).trans (prefix_append _ _)

theorem prefix_dropLast (h : mark <+: text)
    (hlast : text.getLast? ≠ mark.getLast?) : mark <+: text.dropLast := by
  obtain ⟨rest, rfl⟩ := h
  rcases rest with _ | ⟨c, rest⟩
  · rw [append_nil] at hlast
    exact absurd rfl hlast
  · rw [dropLast_append_of_ne_nil (cons_ne_nil c rest)]
    exact prefix_append _ _

/-! ## Two separators in a row -/

/-- `str::split` at two separators in a row. -/
def splitPairs [DecidableEq α] (nl : α) : List α → List (List α)
  | [] => [[]]
  | [c] => [[c]]
  | c :: d :: text =>
    if c = nl ∧ d = nl then [] :: splitPairs nl text
    else (splitPairs nl (d :: text)).modifyHead (c :: ·)

theorem words_splitPairs [DecidableEq α] {nl : α} (hnl : ws nl = true) (text : List α) :
    (splitPairs nl text).flatMap (words ws) = words ws text := by
  suffices h : ∀ a, ((splitPairs nl text).modifyHead (a ++ ·)).flatMap (words ws) =
      words ws (a ++ text) by
    have := h []
    rwa [show (([] : List α) ++ ·) = id from rfl, modifyHead_id] at this
  induction text using splitPairs.induct nl with
  | case1 | case2 => intro a; simp [splitPairs]
  | case3 c d text hpair ih =>
    intro a
    obtain ⟨rfl, rfl⟩ := hpair
    have hrest := ih []
    rw [show (([] : List α) ++ ·) = id from rfl, modifyHead_id] at hrest
    rw [splitPairs, if_pos ⟨rfl, rfl⟩, modifyHead_cons, flatMap_cons, append_nil,
      show (splitPairs d text).flatMap (words ws) = words ws text from hrest,
      words_append_blank hnl, words_cons_blank hnl]
  | case4 c d text hpair ih =>
    -- the character joins the part that begins after it
    intro a
    have hjoin : (a ++ ·) ∘ (c :: ·) = ((a ++ [c]) ++ · : List α → List α) := by
      funext part
      exact append_cons a c part
    rw [splitPairs, if_neg hpair, modifyHead_modifyHead, hjoin, ih, ← append_cons]

end Lib
