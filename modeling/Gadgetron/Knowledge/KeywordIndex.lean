import Gadgetron.Knowledge.InvertedIndex
import Mathlib.Data.List.Induction
import Mathlib.Data.Rat.Defs
import Mathlib.Algebra.Order.Ring.Rat

/-!
# The incremental keyword index

`WikiKeywordIndex` applies change events one by one to an inverted index. The reference is the index
built from scratch from the documents that are live after the events.
-/

namespace Gadgetron.Knowledge

open Lib List

structure KnowledgeDocument where
  (path markdown : String)

inductive KnowledgeChangeEvent
  | upsert (document : KnowledgeDocument)
  | delete (path : String)
  | rename (fromPath toPath : String) (document : KnowledgeDocument)

structure KnowledgeQuery where
  text : String
  limit : ℕ

inductive KnowledgeHitKind
  | canonical
  | searchIndex
  | relationEdge

structure KnowledgeHit (F : Type) where
  path : String
  title : Option String
  snippet : String
  score : F
  sourcePlug : String
  sourceKind : KnowledgeHitKind

structure WikiKeywordIndex where
  plugId : String
  inner : InvertedIndex

namespace WikiKeywordIndex

def new : WikiKeywordIndex := ⟨"wiki-keyword", InvertedIndex.new⟩

section

variable (U : UnicodeTables)

def search {F : Type} [LinearOrder F] (score : ℕ → ℕ → F) (index : WikiKeywordIndex)
    (query : KnowledgeQuery) : List (KnowledgeHit F) :=
  if (trim query.text).toList.isEmpty then []
  else
    (index.inner.search U score query.text (max query.limit 1)).map fun hit =>
      { path := hit.name
        title := none
        snippet := hit.snippet.getD ""
        score := hit.score
        sourcePlug := index.plugId
        sourceKind := .searchIndex }

/-- `apply`.  A rename indexes its document under the document's own path. -/
def apply (index : WikiKeywordIndex) : KnowledgeChangeEvent → WikiKeywordIndex
  | .upsert document =>
    { index with inner := index.inner.addPage U document.path document.markdown }
  | .delete path => { index with inner := index.inner.removePage path }
  | .rename fromPath _ document =>
    { index with
      inner := (index.inner.removePage fromPath).addPage U document.path document.markdown }

def applyAll (events : List KnowledgeChangeEvent) : WikiKeywordIndex :=
  events.foldl (apply U) new

end

end WikiKeywordIndex

/-! ## Live documents and the index built from scratch -/

def dropPath (path : String) (documents : List (String × String)) : List (String × String) :=
  documents.filter fun document => decide (document.1 ≠ path)

def updateLive (documents : List (String × String)) : KnowledgeChangeEvent → List (String × String)
  | .upsert document => (document.path, document.markdown) :: dropPath document.path documents
  | .delete path => dropPath path documents
  | .rename fromPath _ document =>
    (document.path, document.markdown) :: dropPath document.path (dropPath fromPath documents)

def liveDocuments (events : List KnowledgeChangeEvent) : List (String × String) :=
  events.foldl updateLive []

def rebuild (U : UnicodeTables) (events : List KnowledgeChangeEvent) : WikiKeywordIndex :=
  { WikiKeywordIndex.new with inner := InvertedIndex.buildFromPages U (liveDocuments events) }

/-- How an event changes the texts written under each path, newest first. -/
def updateVersions (versions : String → List String) : KnowledgeChangeEvent → String → List String
  | .upsert document =>
    Function.update versions document.path (document.markdown :: versions document.path)
  | .delete path => Function.update versions path []
  | .rename fromPath _ document =>
    let versions := Function.update versions fromPath []
    Function.update versions document.path (document.markdown :: versions document.path)

/-- The texts written under a path since it was last removed, newest first. -/
def versions (events : List KnowledgeChangeEvent) : String → List String :=
  events.foldl updateVersions fun _ => []

/-- No live page was overwritten by a text that lacks a token of a text it replaced. -/
def NoStaleToken (U : UnicodeTables) (events : List KnowledgeChangeEvent) : Prop :=
  ∀ path latest older, versions events path = latest :: older →
    ∀ text ∈ older, ∀ token ∈ tokenize U text, token ∈ tokenize U latest

variable {documents : List (String × String)}

theorem mem_dropPath {path path' content : String} :
    (path', content) ∈ dropPath path documents ↔ (path', content) ∈ documents ∧ path' ≠ path := by
  simp [dropPath]

theorem mem_updateLive {vs : String → List String}
    (h : ∀ path content, (path, content) ∈ documents ↔ (vs path).head? = some content)
    (event : KnowledgeChangeEvent) (path content : String) :
    (path, content) ∈ updateLive documents event ↔
      (updateVersions vs event path).head? = some content := by
  cases event with
  | upsert document =>
    by_cases hp : path = document.path
    · subst hp
      simp [updateLive, updateVersions, mem_dropPath, eq_comm]
    · simp [updateLive, updateVersions, mem_dropPath, hp, h]
  | delete deleted =>
    by_cases hp : path = deleted
    · subst hp
      simp [updateLive, updateVersions, mem_dropPath]
    · simp [updateLive, updateVersions, mem_dropPath, hp, h]
  | rename fromPath toPath document =>
    by_cases hp : path = document.path
    · subst hp
      simp [updateLive, updateVersions, mem_dropPath, eq_comm]
    · by_cases hf : path = fromPath
      · subst hf
        simp [updateLive, updateVersions, mem_dropPath, hp]
      · simp [updateLive, updateVersions, mem_dropPath, hp, hf, h]

theorem mem_liveDocuments (events : List KnowledgeChangeEvent) (path content : String) :
    (path, content) ∈ liveDocuments events ↔ (versions events path).head? = some content := by
  unfold liveDocuments versions
  induction events using List.reverseRecOn generalizing path content with
  | nil => simp
  | append_singleton events event ih =>
    rw [foldl_concat, foldl_concat]
    exact mem_updateLive ih event path content

/-! ## The postings of the incremental index -/

section

variable (U : UnicodeTables)

theorem posted_apply {index : WikiKeywordIndex} {vs : String → List String}
    (h : ∀ term page, index.inner.posted term page = true ↔
      ∃ text ∈ vs page, term ∈ tokenize U text)
    (event : KnowledgeChangeEvent) (term page : String) :
    (index.apply U event).inner.posted term page = true ↔
      ∃ text ∈ updateVersions vs event page, term ∈ tokenize U text := by
  cases event with
  | upsert document =>
    simp only [WikiKeywordIndex.apply, InvertedIndex.posted_addPage, Bool.or_eq_true, h,
      decide_eq_true_eq, updateVersions]
    by_cases hp : page = document.path
    · subst hp
      simp [or_comm]
    · simp [hp]
  | delete path =>
    simp only [WikiKeywordIndex.apply, InvertedIndex.posted_removePage, Bool.and_eq_true, h,
      decide_eq_true_eq, updateVersions]
    by_cases hp : page = path
    · subst hp
      simp
    · simp [hp]
  | rename fromPath toPath document =>
    simp only [WikiKeywordIndex.apply, InvertedIndex.posted_addPage,
      InvertedIndex.posted_removePage, Bool.or_eq_true, Bool.and_eq_true, h, decide_eq_true_eq,
      updateVersions]
    by_cases hp : page = document.path
    · subst hp
      by_cases hf : document.path = fromPath
      · simp [hf]
      · simp [hf, or_comm]
    · by_cases hf : page = fromPath
      · subst hf
        simp [hp]
      · simp [hp, hf]

section

variable (events : List KnowledgeChangeEvent)

theorem posted_applyAll (term page : String) :
    (WikiKeywordIndex.applyAll U events).inner.posted term page = true ↔
      ∃ text ∈ versions events page, term ∈ tokenize U text := by
  unfold WikiKeywordIndex.applyAll versions
  induction events using List.reverseRecOn generalizing term page with
  | nil => simp [WikiKeywordIndex.new]
  | append_singleton events event ih =>
    rw [foldl_concat, foldl_concat]
    exact posted_apply U ih event term page

theorem posted_rebuild (term page : String) :
    (rebuild U events).inner.posted term page = true ↔
      ∃ text, (versions events page).head? = some text ∧ term ∈ tokenize U text := by
  simp only [rebuild, InvertedIndex.posted_buildFromPages, mem_liveDocuments]

theorem plugId_applyAll :
    (WikiKeywordIndex.applyAll U events).plugId = (rebuild U events).plugId := by
  unfold WikiKeywordIndex.applyAll
  induction events using List.reverseRecOn with
  | nil => rfl
  | append_singleton events event ih =>
    rw [foldl_concat]
    cases event <;> exact ih

theorem posted_applyAll_eq_rebuild_iff :
    (∀ term page, (WikiKeywordIndex.applyAll U events).inner.posted term page =
      (rebuild U events).inner.posted term page) ↔ NoStaleToken U events := by
  constructor
  · intro h path latest older hv text htext token htoken
    have hp := (posted_applyAll U events token path).2
      ⟨text, by rw [hv]; exact mem_cons_of_mem _ htext, htoken⟩
    rw [h] at hp
    obtain ⟨text', htext', htoken'⟩ := (posted_rebuild U events token path).1 hp
    rw [hv] at htext'
    cases htext'
    exact htoken'
  · intro h term page
    rw [Bool.eq_iff_iff, posted_applyAll, posted_rebuild]
    constructor
    · rintro ⟨text, htext, hterm⟩
      rcases hv : versions events page with _ | ⟨latest, older⟩
      · rw [hv] at htext
        cases htext
      · refine ⟨latest, rfl, ?_⟩
        rw [hv] at htext
        rcases mem_cons.1 htext with rfl | htext
        · exact hterm
        · exact h page latest older hv text htext term hterm
    · rintro ⟨text, htext, hterm⟩
      exact ⟨text, mem_of_mem_head? htext, hterm⟩

end

end

section

variable (U : UnicodeTables) {F : Type} [LinearOrder F] (score : ℕ → ℕ → F)

theorem exists_path_iff_posted (index : WikiKeywordIndex) {piece term : String}
    (htokens : tokenize U piece = [term]) (hne : piece.toList ≠ [])
    (halnum : ∀ c ∈ piece.toList, U.isAlphanumeric c = true) {limit : ℕ}
    (hroom : (index.inner.pageHits [term]).entries.length ≤ limit) (page : String) :
    (∃ hit ∈ index.search U score ⟨piece, limit⟩, hit.path = page) ↔
      index.inner.posted term page = true := by
  have hquery : InvertedIndex.queryTokens U piece = [term] := by
    unfold InvertedIndex.queryTokens
    rw [htokens]
    rfl
  have hhits := InvertedIndex.exists_hit_iff U score index.inner piece
    (n := max limit 1) (by simp [hquery]) (by omega) (by rw [hquery]; omega) page
  have htrim : trim piece = piece :=
    trim_eq_self fun c hc => U.isWhitespace_of_isAlphanumeric c (halnum c hc)
  unfold WikiKeywordIndex.search
  rw [htrim]
  simpa [hquery, hne] using hhits

variable {index index' : WikiKeywordIndex}

theorem posted_eq_of_search_eq
    (h : ∀ query, index.search U score query = index'.search U score query) {text term : String}
    (hterm : term ∈ tokenize U text) (page : String) :
    index.inner.posted term page = index'.inner.posted term page := by
  obtain ⟨piece, htokens, hne, halnum⟩ := exists_piece_of_mem_tokenize U hterm
  have hfirst := exists_path_iff_posted U score index htokens hne halnum
    (Nat.le_max_left _ (index'.inner.pageHits [term]).entries.length) page
  have hsecond := exists_path_iff_posted U score index' htokens hne halnum
    (Nat.le_max_right (index.inner.pageHits [term]).entries.length _) page
  rw [Bool.eq_iff_iff, ← hfirst, ← hsecond, h]

theorem search_eq_of_posted_eq (hplug : index.plugId = index'.plugId)
    (h : ∀ term page, index.inner.posted term page = index'.inner.posted term page)
    (query : KnowledgeQuery) : index.search U score query = index'.search U score query := by
  unfold WikiKeywordIndex.search
  rw [InvertedIndex.search_congr U score h, hplug]

/-- Searches are those of a rebuilt index exactly when no token of an older page is left. -/
theorem incremental_search_eq_rebuild_iff (events : List KnowledgeChangeEvent) :
    (∀ query, (WikiKeywordIndex.applyAll U events).search U score query =
      (rebuild U events).search U score query) ↔ NoStaleToken U events := by
  rw [← posted_applyAll_eq_rebuild_iff]
  refine ⟨fun h term page => ?_, search_eq_of_posted_eq U score (plugId_applyAll U events)⟩
  -- a term that neither index posts is settled; one that either posts is a token of some text
  by_cases hterm : ∃ text, term ∈ tokenize U text
  · obtain ⟨text, hterm⟩ := hterm
    exact posted_eq_of_search_eq U score h hterm page
  · have hnone : ∀ vs : List String, ¬ ∃ text ∈ vs, term ∈ tokenize U text :=
      fun _ ⟨text, _, ht⟩ => hterm ⟨text, ht⟩
    rw [Bool.eq_iff_iff, posted_applyAll, posted_rebuild]
    refine iff_of_false (hnone _) fun ⟨text, _, ht⟩ => hterm ⟨text, ht⟩

end

def asciiTables : UnicodeTables where
  isAlphanumeric := Char.isAlphanum
  toLowercase text := String.ofList (text.toList.map Char.toLower)
  isWhitespace_of_isAlphanumeric c h := by
    have h : ((decide (c.val ≥ 'A'.val ∧ c.val ≤ 'Z'.val) ||
        (decide (c.val ≥ 'a'.val) && decide (c.val ≤ 'z'.val))) ||
        (decide (c.val ≥ '0'.val) && decide (c.val ≤ '9'.val))) = true := h
    simp only [Bool.or_eq_true, Bool.and_eq_true, decide_eq_true_eq, ge_iff_le,
      UInt32.le_iff_toNat_le] at h
    have hupper : 'A'.val.toNat = 65 ∧ 'Z'.val.toNat = 90 := ⟨rfl, rfl⟩
    have hlower : 'a'.val.toNat = 97 ∧ 'z'.val.toNat = 122 := ⟨rfl, rfl⟩
    have hdigit : '0'.val.toNat = 48 ∧ '9'.val.toNat = 57 := ⟨rfl, rfl⟩
    have hn : c.toNat = c.val.toNat := rfl
    simp only [isWhitespace, Bool.or_eq_false_iff, Bool.and_eq_false_iff, beq_eq_false_iff_ne,
      decide_eq_false_iff_not, ne_eq]
    omega

/-- A page is written twice; the second text drops the word of the first. -/
def overwrite : List KnowledgeChangeEvent :=
  [.upsert ⟨"home", "quarterly"⟩, .upsert ⟨"home", "review"⟩]

theorem overwritten_word_still_found :
    ((WikiKeywordIndex.applyAll asciiTables overwrite).search asciiTables
        (fun count total => (count : ℚ) / total) ⟨"quarterly", 10⟩).map KnowledgeHit.path =
        ["home"] ∧ (rebuild asciiTables overwrite).search asciiTables
        (fun count total => (count : ℚ) / total) ⟨"quarterly", 10⟩ = [] := by
  decide

end Gadgetron.Knowledge
