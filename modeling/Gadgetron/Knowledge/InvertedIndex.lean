import Gadgetron.Lib.OrdSet
import Gadgetron.Lib.SortBy
import Gadgetron.Lib.Text

/-!
# The inverted index over wiki pages

`InvertedIndex` of the wiki: the tokenizer, `add_page`, `remove_page` and `search`.
-/

namespace Gadgetron.Knowledge

open Lib List

structure UnicodeTables where
  isAlphanumeric : Char → Bool
  toLowercase : String → String
  isWhitespace_of_isAlphanumeric : ∀ c, isAlphanumeric c = true → isWhitespace c = false

structure WikiSearchHit (F : Type) where
  name : String
  score : F
  snippet : Option String

structure InvertedIndex where
  terms : OrdMap String (OrdSet String)
  pageCount : ℕ

section

variable (U : UnicodeTables)

def tokenOf (piece : String) : Option String :=
  if piece.toList.isEmpty then none
  else
    let lowered := U.toLowercase piece
    if lowered.toList.length < 2 && lowered.toList.all fun c => decide (c.toNat < 128) then none
    else some lowered

def tokenize (text : String) : List String :=
  ((text.toList.splitOnP fun c => !U.isAlphanumeric c).map String.ofList).filterMap (tokenOf U)

theorem separator_not_mem_piece {α : Type} {p : α → Bool} {l piece : List α}
    (h : piece ∈ l.splitOnP p) {a : α} (ha : a ∈ piece) : p a = false := by
  induction l generalizing piece with
  | nil =>
    rw [splitOnP_nil, mem_singleton] at h
    subst h
    cases ha
  | cons x l ih =>
    rw [splitOnP_cons_eq_if_modifyHead] at h
    split_ifs at h with hx
    · rcases mem_cons.1 h with rfl | h
      · cases ha
      · exact ih h ha
    · rcases hl : l.splitOnP p with _ | ⟨first, rest⟩
      · exact absurd hl (splitOnP_ne_nil p l)
      · rw [hl, modifyHead_cons] at h
        rcases mem_cons.1 h with rfl | h
        · rcases mem_cons.1 ha with rfl | ha
          · simpa using hx
          · exact ih (by rw [hl]; exact mem_cons_self) ha
        · exact ih (by rw [hl]; exact mem_cons_of_mem _ h) ha

theorem exists_piece_of_mem_tokenize {text token : String} (h : token ∈ tokenize U text) :
    ∃ piece : String, tokenize U piece = [token] ∧ piece.toList ≠ [] ∧
      ∀ c ∈ piece.toList, U.isAlphanumeric c = true := by
  unfold tokenize at h
  rw [mem_filterMap] at h
  obtain ⟨piece, hpiece, htoken⟩ := h
  obtain ⟨chars, hchars, rfl⟩ := List.mem_map.1 hpiece
  have halnum : ∀ c ∈ chars, (!U.isAlphanumeric c) = false :=
    fun c => separator_not_mem_piece hchars
  refine ⟨String.ofList chars, ?_, ?_, ?_⟩
  · unfold tokenize
    rw [String.toList_ofList, splitOnP_eq_singleton halnum]
    simp [htoken]
  · rintro hnil
    unfold tokenOf at htoken
    simp [hnil] at htoken
  · rw [String.toList_ofList]
    exact fun c hc => by simpa using halnum c hc

end

namespace InvertedIndex

def new : InvertedIndex := ⟨OrdMap.empty, 0⟩

def distinctPages (terms : OrdMap String (OrdSet String)) : ℕ :=
  (OrdSet.ofList (terms.values.flatMap OrdSet.toList)).length

def anyContains (terms : OrdMap String (OrdSet String)) (name : String) : Bool :=
  terms.values.any fun set => decide (name ∈ set)

/-- One token of `add_page`; the flag says that no token so far was already posted for the page. -/
def addToken (name : String) (acc : OrdMap String (OrdSet String) × Bool) (token : String) :
    OrdMap String (OrdSet String) × Bool :=
  let entry := (acc.1.get? token).getD OrdSet.empty
  (acc.1.insert token (entry.insert name), if name ∈ entry then false else acc.2)

def removePage (idx : InvertedIndex) (name : String) : InvertedIndex :=
  let terms := idx.terms.mapValues fun set => set.filter fun page => decide (page ≠ name)
  { terms
    pageCount := if anyContains idx.terms name then distinctPages terms else idx.pageCount }

variable (U : UnicodeTables)

def addPage (idx : InvertedIndex) (name content : String) : InvertedIndex :=
  let (terms, isNew) := (tokenize U content).foldl (addToken name) (idx.terms, true)
  { terms
    pageCount :=
      if isNew then
        if anyContains terms name then distinctPages terms else idx.pageCount + 1
      else distinctPages terms }

def buildFromPages (pages : List (String × String)) : InvertedIndex :=
  pages.foldl (fun idx page => idx.addPage U page.1 page.2) new

def queryTokens (query : String) : List String := (OrdSet.ofList (tokenize U query)).toList

/-- The number of distinct query terms that each page matches. -/
def pageHits (idx : InvertedIndex) (tokens : List String) : OrdMap String ℕ :=
  OrdMap.empty.tally (tokens.filterMap idx.terms.get?)

variable {F : Type}

def hitOrder [LinearOrder F] (a b : WikiSearchHit F) : Ordering :=
  (compare b.score a.score).then (compare a.name b.name)

/-- `search`; `score count total` is `count as f32 / total as f32`. -/
def search [LinearOrder F] (score : ℕ → ℕ → F) (idx : InvertedIndex) (query : String)
    (maxResults : ℕ) : List (WikiSearchHit F) :=
  let tokens := queryTokens U query
  if tokens.isEmpty || maxResults == 0 then []
  else
    let hits := (idx.pageHits tokens).entries.map fun entry =>
      { name := entry.1, score := score entry.2 tokens.length, snippet := none }
    (sortBy hitOrder hits).take maxResults

/-! ## The relation between terms and pages -/

def posted (idx : InvertedIndex) (term page : String) : Bool :=
  (idx.terms.get? term).any fun pages => decide (page ∈ pages)

@[simp] theorem posted_new (term page : String) : new.posted term page = false := rfl

theorem posted_removePage (idx : InvertedIndex) (name term page : String) :
    (idx.removePage name).posted term page = (idx.posted term page && decide (page ≠ name)) := by
  unfold removePage posted
  rw [OrdMap.get?_mapValues]
  rcases idx.terms.get? term with _ | pages
  · rfl
  · simp [Bool.decide_and]

theorem any_get?_foldl_addToken (name : String) (tokens : List String)
    (acc : OrdMap String (OrdSet String) × Bool) (term page : String) :
    (((tokens.foldl (addToken name) acc).1.get? term).any fun pages => decide (page ∈ pages)) =
      (((acc.1.get? term).any fun pages => decide (page ∈ pages)) ||
        decide (page = name ∧ term ∈ tokens)) := by
  induction tokens generalizing acc with
  | nil => simp
  | cons token tokens ih =>
    rw [foldl_cons, ih]
    unfold addToken
    rw [OrdMap.get?_insert]
    by_cases ht : term = token
    · subst ht
      rcases acc.1.get? term with _ | pages
      · by_cases hp : page = name <;> simp [hp]
      · by_cases hp : page = name <;> simp [hp]
    · simp [ht]

theorem posted_addPage (idx : InvertedIndex) (name content term page : String) :
    (idx.addPage U name content).posted term page =
      (idx.posted term page || decide (page = name ∧ term ∈ tokenize U content)) :=
  any_get?_foldl_addToken name (tokenize U content) (idx.terms, true) term page

theorem posted_buildFromPages (pages : List (String × String)) (term page : String) :
    (buildFromPages U pages).posted term page = true ↔
      ∃ content, (page, content) ∈ pages ∧ term ∈ tokenize U content := by
  have key : ∀ idx : InvertedIndex,
      (pages.foldl (fun idx page => idx.addPage U page.1 page.2) idx).posted term page = true ↔
        idx.posted term page = true ∨
          ∃ content, (page, content) ∈ pages ∧ term ∈ tokenize U content := by
    induction pages with
    | nil => simp
    | cons entry pages ih =>
      intro idx
      rw [foldl_cons, ih, posted_addPage]
      simp only [Bool.or_eq_true, decide_eq_true_eq, mem_cons, or_and_right, exists_or, or_assoc]
      refine or_congr_right (or_congr_left ?_)
      constructor
      · rintro ⟨rfl, ht⟩
        exact ⟨entry.2, rfl, ht⟩
      · rintro ⟨content, hentry, ht⟩
        cases hentry
        exact ⟨rfl, ht⟩
  rw [buildFromPages, key]
  simp

/-! ## `search` reads only that relation -/

theorem get?_pageHits (idx : InvertedIndex) (tokens : List String) (page : String) :
    (idx.pageHits tokens).get? page = if tokens.countP (fun t => idx.posted t page) = 0 then none
      else some (tokens.countP fun t => idx.posted t page) := by
  have hcount : (tokens.filterMap idx.terms.get?).countP (fun set => decide (page ∈ set)) =
      tokens.countP fun t => idx.posted t page := by
    rw [countP_filterMap]
    refine countP_congr fun t _ => ?_
    unfold posted
    rcases idx.terms.get? t with _ | pages <;> simp
  unfold pageHits
  rw [OrdMap.get?_tally, hcount]
  simp

theorem search_congr [LinearOrder F] (score : ℕ → ℕ → F) {idx idx' : InvertedIndex}
    (h : ∀ term page, idx.posted term page = idx'.posted term page) (query : String)
    (maxResults : ℕ) :
    idx.search U score query maxResults = idx'.search U score query maxResults := by
  have hhits : ∀ tokens, idx.pageHits tokens = idx'.pageHits tokens := by
    intro tokens
    ext1 page
    simp only [get?_pageHits, h]
  unfold search
  simp only [hhits]

theorem exists_hit_iff [LinearOrder F] (score : ℕ → ℕ → F) (idx : InvertedIndex)
    (query : String) (hquery : queryTokens U query ≠ []) {n : ℕ} (hpos : n ≠ 0)
    (hroom : (idx.pageHits (queryTokens U query)).entries.length ≤ n) (page : String) :
    (∃ hit ∈ idx.search U score query n, hit.name = page) ↔
      ∃ t ∈ queryTokens U query, idx.posted t page = true := by
  have hempty : ((queryTokens U query).isEmpty || n == 0) = false := by
    simp [hquery, hpos]
  unfold search
  simp only [hempty, Bool.false_eq_true, if_false]
  rw [take_of_length_le (by rw [(sortBy_perm _ _).length_eq, List.length_map]; exact hroom)]
  simp only [mem_sortBy, List.mem_map, Prod.exists, OrdMap.mem_entries, get?_pageHits]
  constructor
  · rintro ⟨-, ⟨name, count, hcount, rfl⟩, rfl⟩
    split_ifs at hcount with h0
    exact countP_pos_iff.1 (Nat.pos_of_ne_zero h0)
  · intro hex
    have hpos := countP_pos_iff.2 hex
    exact ⟨_, ⟨page, _, if_neg (by omega), rfl⟩, rfl⟩

end InvertedIndex

end Gadgetron.Knowledge
