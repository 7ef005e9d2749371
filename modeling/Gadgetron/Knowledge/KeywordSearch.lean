import Gadgetron.Knowledge.KeywordIndex
import Gadgetron.Lib.Rounding
import Mathlib.Data.Prod.Lex

/-!
# The order of search hits

`InvertedIndex::search` over the hash maps as they are iterated, with the score in binary32.
-/

namespace Gadgetron.Knowledge

open Lib List Option

inductive IndexUpdate
  | add (name content : String)
  | remove (name : String)

namespace InvertedIndex

section

variable (U : UnicodeTables)

def update (idx : InvertedIndex) : IndexUpdate → InvertedIndex
  | .add name content => idx.addPage U name content
  | .remove name => idx.removePage name

def run (updates : List IndexUpdate) : InvertedIndex := updates.foldl (update U) new

/-- A text with the token was added under the name after its last removal. -/
def Contains (updates : List IndexUpdate) (page token : String) : Prop :=
  ∃ before content after, updates = before ++ .add page content :: after ∧
    token ∈ tokenize U content ∧ .remove page ∉ after

theorem contains_concat {updates : List IndexUpdate} {last : IndexUpdate} {page token : String} :
    Contains U (updates ++ [last]) page token ↔
      (∃ content, last = .add page content ∧ token ∈ tokenize U content) ∨
        last ≠ .remove page ∧ Contains U updates page token := by
  constructor
  · rintro ⟨before, content, after, heq, htoken, hremove⟩
    rcases eq_nil_or_concat after with rfl | ⟨rest, other, rfl⟩
    · exact .inl ⟨content, List.singleton_inj.1 (append_inj' heq rfl).2, htoken⟩
    · rw [concat_eq_append, mem_append, not_or, mem_singleton] at hremove
      rw [concat_eq_append, ← cons_append, ← List.append_assoc] at heq
      obtain ⟨hupdates, hlast⟩ := append_inj' heq rfl
      rw [List.singleton_inj.1 hlast]
      exact .inr ⟨fun h => hremove.2 h.symm, before, content, rest, hupdates, htoken, hremove.1⟩
  · rintro (⟨content, rfl, htoken⟩ | ⟨hlast, before, content, after, rfl, htoken, hremove⟩)
    · exact ⟨updates, content, [], rfl, htoken, not_mem_nil⟩
    · refine ⟨before, content, after ++ [last], by simp, htoken, fun hmem => ?_⟩
      rcases mem_append.1 hmem with hmem | hmem
      · exact hremove hmem
      · exact hlast (mem_singleton.1 hmem).symm

theorem posted_run (updates : List IndexUpdate) (token page : String) :
    (run U updates).posted token page = true ↔ Contains U updates page token := by
  induction updates using List.reverseRecOn with
  | nil =>
    refine iff_of_false (by simp [run]) ?_
    rintro ⟨before, content, after, hnil, -⟩
    exact absurd hnil.symm (by simp)
  | append_singleton updates last ih =>
    have hrun : run U (updates ++ [last]) = (run U updates).update U last := by
      unfold run
      rw [foldl_append]
      rfl
    rw [hrun, contains_concat, ← ih]
    cases last with
    | add name content =>
      change (addPage U (run U updates) name content).posted token page = true ↔ _
      rw [posted_addPage, Bool.or_eq_true, decide_eq_true_eq]
      grind
    | remove name =>
      change ((run U updates).removePage name).posted token page = true ↔ _
      rw [posted_removePage, Bool.and_eq_true, decide_eq_true_eq]
      grind

/-! ## Search -/

def f32Quotient (count total : ℕ) : ℚ := roundTo 24 (roundTo 24 count / roundTo 24 total)

def countHits (idx : InvertedIndex) (pages : String → List String) (tokens : List String) :
    OrdMap String ℕ :=
  tokens.foldl (fun counts token =>
    if (idx.terms.get? token).isSome then (pages token).foldl OrdMap.bump counts else counts)
    OrdMap.empty

/-- The order in which the hash maps and sets of a search are iterated. -/
structure Iteration (idx : InvertedIndex) (query : String) where
  tokens : List String
  tokens_perm : tokens.Perm (queryTokens U query)
  pages : String → List String
  pages_perm : ∀ term set, idx.terms.get? term = some set → (pages term).Perm set.toList
  hits : List (String × ℕ)
  hits_perm : hits.Perm (countHits idx pages tokens).entries

variable {U}

/-- `search`, as the maps are iterated. -/
def Iteration.search {idx : InvertedIndex} {query : String} (iteration : Iteration U idx query)
    (maxResults : ℕ) : List (WikiSearchHit ℚ) :=
  if iteration.tokens.isEmpty || maxResults == 0 then []
  else
    let hits := iteration.hits.map fun entry =>
      (⟨entry.1, f32Quotient entry.2 iteration.tokens.length, none⟩ : WikiSearchHit ℚ)
    (sortBy hitOrder hits).take maxResults

variable (U)

def hitCount (idx : InvertedIndex) (query page : String) : ℕ :=
  (queryTokens U query).countP fun token => idx.posted token page

end

section

variable {U : UnicodeTables} {idx : InvertedIndex} {query : String}

def hitKey (hit : WikiSearchHit ℚ) : ℚᵒᵈ ×ₗ String := toLex (OrderDual.toDual hit.score, hit.name)

theorem hitOrder_eq (a b : WikiSearchHit ℚ) : hitOrder a b = compare (hitKey a) (hitKey b) := by
  rw [Prod.Lex.compare_def]
  rfl

theorem hitKey_lt_iff {a b : WikiSearchHit ℚ} :
    hitKey a < hitKey b ↔ b.score < a.score ∨ a.score = b.score ∧ a.name < b.name := by
  unfold hitKey
  rw [Prod.Lex.toLex_lt_toLex]
  exact or_congr_right (and_congr_left' OrderDual.toDual_inj)

theorem countHits_eq {pages : String → List String}
    (hpages : ∀ term set, idx.terms.get? term = some set → (pages term).Perm set.toList)
    (tokens : List String) : countHits idx pages tokens = idx.pageHits tokens := by
  have hbump : ∀ term set, idx.terms.get? term = some set → ∀ counts : OrdMap String ℕ,
      (pages term).foldl OrdMap.bump counts = set.toList.foldl OrdMap.bump counts := by
    intro term set hset counts
    have hperm := hpages term set hset
    ext1 page
    rw [OrdMap.get?_foldl_bump (hperm.nodup_iff.2 set.nodup), OrdMap.get?_foldl_bump set.nodup]
    simp only [hperm.mem_iff]
  unfold countHits pageHits OrdMap.tally
  generalize (OrdMap.empty : OrdMap String ℕ) = counts
  induction tokens generalizing counts with
  | nil => rfl
  | cons token tokens ih =>
    cases hset : idx.terms.get? token with
    | none =>
      rw [foldl_cons, hset, filterMap_cons_none hset]
      exact ih counts
    | some set =>
      rw [foldl_cons, hset, filterMap_cons_some hset, foldl_cons, ← hbump token set hset]
      exact ih _

theorem pageHits_perm {tokens : List String} (h : tokens.Perm (queryTokens U query)) :
    idx.pageHits tokens = idx.pageHits (queryTokens U query) := by
  ext1 page
  rw [get?_pageHits, get?_pageHits, h.countP_eq]

theorem mem_entries_pageHits {page : String} {count : ℕ} :
    (page, count) ∈ (idx.pageHits (queryTokens U query)).entries ↔
      0 < hitCount U idx query page ∧ count = hitCount U idx query page := by
  rw [OrdMap.mem_entries, get?_pageHits]
  change (if hitCount U idx query page = 0 then none else some (hitCount U idx query page)) =
    some count ↔ _
  split_ifs with hzero
  · simp [hzero]
  · simp only [some.injEq, Nat.pos_of_ne_zero hzero, true_and]
    exact eq_comm

/-- The hits in their order, before they are cut to the limit. -/
def ranked (U : UnicodeTables) (idx : InvertedIndex) (query : String) : List (WikiSearchHit ℚ) :=
  sortBy hitOrder ((idx.pageHits (queryTokens U query)).entries.map fun entry =>
    ⟨entry.1, f32Quotient entry.2 (queryTokens U query).length, none⟩)

theorem mem_ranked {hit : WikiSearchHit ℚ} : hit ∈ ranked U idx query ↔
    0 < hitCount U idx query hit.name ∧ hit = ⟨hit.name,
      f32Quotient (hitCount U idx query hit.name) (queryTokens U query).length, none⟩ := by
  unfold ranked
  rw [mem_sortBy, List.mem_map]
  constructor
  · rintro ⟨⟨page, count⟩, hentry, rfl⟩
    obtain ⟨hpos, rfl⟩ := mem_entries_pageHits.1 hentry
    exact ⟨hpos, rfl⟩
  · rintro ⟨hpos, hhit⟩
    exact ⟨(hit.name, hitCount U idx query hit.name), mem_entries_pageHits.2 ⟨hpos, rfl⟩, hhit.symm⟩

theorem nodup_hitKey (counts : OrdMap String ℕ) (total : ℕ) : ((counts.entries.map fun entry =>
      (⟨entry.1, f32Quotient entry.2 total, none⟩ : WikiSearchHit ℚ)).map hitKey).Nodup := by
  have hentries : counts.entries.Nodup := by
    unfold OrdMap.entries
    refine (OrdSet.nodup _).filterMap fun key key' entry hkey hkey' => ?_
    obtain ⟨value, -, rfl⟩ := map_eq_some_iff.1 hkey
    obtain ⟨value', -, hentry⟩ := map_eq_some_iff.1 hkey'
    exact (congrArg Prod.fst hentry).symm
  rw [List.map_map]
  refine hentries.map_on ?_
  rintro ⟨page, count⟩ hentry ⟨page', count'⟩ hentry' hkey
  have hpage : page = page' := congrArg (fun key => (ofLex key).2) hkey
  subst hpage
  have hcount := (OrdMap.mem_entries.1 hentry).symm.trans (OrdMap.mem_entries.1 hentry')
  rw [some.inj hcount]

theorem ranked_pairwise : (ranked U idx query).Pairwise fun a b => hitKey a < hitKey b :=
  sortBy_pairwise_lt hitOrder_eq (nodup_hitKey _ _)

theorem Iteration.search_eq (iteration : Iteration U idx query) (maxResults : ℕ) :
    iteration.search maxResults = (ranked U idx query).take maxResults := by
  have hcounts : countHits idx iteration.pages iteration.tokens =
      idx.pageHits (queryTokens U query) :=
    (countHits_eq iteration.pages_perm _).trans (pageHits_perm iteration.tokens_perm)
  have hhits := iteration.hits_perm
  rw [hcounts] at hhits
  have hsort : sortBy hitOrder (iteration.hits.map fun entry =>
      (⟨entry.1, f32Quotient entry.2 iteration.tokens.length, none⟩ : WikiSearchHit ℚ)) =
        ranked U idx query := by
    rw [iteration.tokens_perm.length_eq]
    unfold ranked
    exact (sortBy_eq_of_perm hitOrder_eq (nodup_hitKey _ _) (hhits.symm.map _)).symm
  unfold Iteration.search
  by_cases hempty : (iteration.tokens.isEmpty || maxResults == 0) = true
  · rw [if_pos hempty]
    rcases Bool.or_eq_true_iff.1 hempty with htokens | hzero
    · have hnone : queryTokens U query = [] := by
        rw [List.isEmpty_iff] at htokens
        exact perm_nil.1 (htokens ▸ iteration.tokens_perm).symm
      have hranked : ranked U idx query = [] := by
        refine eq_nil_iff_forall_not_mem.2 fun hit hhit => ?_
        have hpos := (mem_ranked.1 hhit).1
        unfold hitCount at hpos
        rw [hnone] at hpos
        exact absurd hpos (lt_irrefl 0)
      rw [hranked, take_nil]
    · rw [beq_iff_eq.1 hzero, take_zero]
  · rw [if_neg hempty]
    dsimp only
    rw [hsort]

/-! ## Scores and numbers of tokens -/

theorem f32Quotient_lt {m n total : ℕ} (hm : 0 < m) (hmn : m < n) (hn : n ≤ total)
    (htotal : total ≤ 2 ^ 24) : f32Quotient m total < f32Quotient n total := by
  have hexact : ∀ {k : ℕ}, 0 < k → k ≤ 2 ^ 24 → roundTo 24 k = k := by
    intro k hk hle
    simpa using roundTo_natCast_mul_zpow (by decide) hk hle 0
  unfold f32Quotient
  rw [hexact hm (by omega), hexact (hm.trans hmn) (by omega), hexact (by omega) htotal]
  exact roundTo_div_lt_roundTo_div (by decide) hm hmn hn htotal

theorem ranked_pairwise_hitCount (htotal : (queryTokens U query).length ≤ 2 ^ 24) :
    (ranked U idx query).Pairwise fun a b =>
      hitCount U idx query b.name < hitCount U idx query a.name ∨
        hitCount U idx query a.name = hitCount U idx query b.name ∧ a.name < b.name := by
  have hkeys : (ranked U idx query).Pairwise fun a b => hitKey a < hitKey b := ranked_pairwise
  refine hkeys.imp_of_mem ?_
  intro a b ha hb hlt
  have hscore : ∀ hit ∈ ranked U idx query, hit.score =
      f32Quotient (hitCount U idx query hit.name) (queryTokens U query).length := by
    intro hit hhit
    rw [(mem_ranked.1 hhit).2]
  have hlower : ∀ c ∈ ranked U idx query, ∀ d ∈ ranked U idx query,
      hitCount U idx query c.name < hitCount U idx query d.name → c.score < d.score := by
    intro c hc d hd hcount
    rw [hscore c hc, hscore d hd]
    exact f32Quotient_lt (mem_ranked.1 hc).1 hcount countP_le_length htotal
  rcases lt_trichotomy (hitCount U idx query a.name) (hitCount U idx query b.name) with
    hless | heq | hmore
  · have hkey := hitKey_lt_iff.1 hlt
    have hab := hlower a ha b hb hless
    rcases hkey with hba | ⟨heq, -⟩
    · exact absurd hba hab.asymm
    · exact absurd heq hab.ne
  · refine .inr ⟨heq, ?_⟩
    rcases hitKey_lt_iff.1 hlt with hba | ⟨-, hname⟩
    · rw [hscore a ha, hscore b hb, heq] at hba
      exact absurd hba (lt_irrefl _)
    · exact hname
  · exact .inl hmore

end

/-! ## The hits of a search -/

/-- The hits of a search, whatever the iteration of its maps: the pages with a query token by
descending score and then by name, cut to the limit; up to `2 ^ 24` query tokens this is by the
number of tokens. -/
theorem search_spec (U : UnicodeTables) (updates : List IndexUpdate) (query : String)
    (iteration : Iteration U (run U updates) query) (maxResults : ℕ) :
    (∀ page token, (run U updates).posted token page = true ↔ Contains U updates page token) ∧
      ∃ hits : List (WikiSearchHit ℚ), iteration.search maxResults = hits.take maxResults ∧
        (∀ hit, hit ∈ hits ↔ 0 < hitCount U (run U updates) query hit.name ∧
          hit = ⟨hit.name, f32Quotient (hitCount U (run U updates) query hit.name)
            (queryTokens U query).length, none⟩) ∧
        hits.Pairwise (fun a b => b.score < a.score ∨ a.score = b.score ∧ a.name < b.name) ∧
        ((queryTokens U query).length ≤ 2 ^ 24 → hits.Pairwise fun a b =>
          hitCount U (run U updates) query b.name < hitCount U (run U updates) query a.name ∨
            hitCount U (run U updates) query a.name = hitCount U (run U updates) query b.name ∧
              a.name < b.name) :=
  ⟨fun page token => posted_run U updates token page, ranked U (run U updates) query,
    iteration.search_eq maxResults, fun _ => mem_ranked,
    ranked_pairwise.imp hitKey_lt_iff.1, ranked_pairwise_hitCount⟩

/-! ## More than `2 ^ 24` tokens -/

section

def spaced (words : List String) : String :=
  String.ofList (words.flatMap fun word => ' ' :: word.toList)

theorem splitOnP_append {p : Char → Bool} {word rest : List Char} (h : ∀ c ∈ word, p c = false) :
    (word ++ rest).splitOnP p = (rest.splitOnP p).modifyHead (word ++ ·) := by
  induction word with
  | nil => exact (congrFun modifyHead_id _).symm
  | cons c word ih =>
    obtain ⟨hc, hword⟩ := forall_mem_cons.1 h
    rw [cons_append, splitOnP_cons_eq_if_modifyHead, if_neg (by simp [hc]), ih hword,
      modifyHead_modifyHead]
    rfl

theorem splitOnP_spaced {p : Char → Bool} (hspace : p ' ' = true) {words : List String}
    (h : ∀ word ∈ words, ∀ c ∈ word.toList, p c = false) :
    (spaced words).toList.splitOnP p = [] :: words.map String.toList := by
  unfold spaced
  rw [String.toList_ofList]
  induction words with
  | nil => rfl
  | cons word words ih =>
    obtain ⟨hword, hwords⟩ := forall_mem_cons.1 h
    rw [flatMap_cons, cons_append, splitOnP_cons_eq_if_modifyHead, if_pos hspace,
      splitOnP_append hword, ih hwords]
    simp

def numbered (i : ℕ) : String := "t" ++ toString i

theorem isAlphanum_of_mem_numbered {i : ℕ} {c : Char} (h : c ∈ (numbered i).toList) :
    c.isAlphanum = true ∧ c.toLower = c := by
  unfold numbered at h
  rw [String.toList_append] at h
  rcases mem_append.1 h with h | h
  · rw [mem_singleton.1 h]
    decide
  · have hdigit : c.isDigit = true := by
      change c ∈ (Nat.repr i).toList at h
      rw [Nat.toList_repr] at h
      exact Nat.isDigit_of_mem_toDigits (by decide) (by decide) h
    refine ⟨by simp [Char.isAlphanum, hdigit], dif_neg fun hupper => ?_⟩
    rw [Char.isDigit, Bool.and_eq_true, decide_eq_true_eq, decide_eq_true_eq] at hdigit
    have hle : 'A'.val ≤ '9'.val := UInt32.le_trans hupper.1 hdigit.2
    exact absurd hle (by decide)

theorem tokenOf_numbered (i : ℕ) : tokenOf asciiTables (numbered i) = some (numbered i) := by
  have hlower : asciiTables.toLowercase (numbered i) = numbered i := by
    change String.ofList ((numbered i).toList.map Char.toLower) = numbered i
    rw [map_congr_left fun c hc => (isAlphanum_of_mem_numbered hc).2, List.map_id',
      String.ofList_toList]
  have hlength : 2 ≤ (numbered i).toList.length := by
    have hpos : 0 < (Nat.toDigits 10 i).length := Nat.length_toDigits_pos
    change 2 ≤ ("t" ++ Nat.repr i).toList.length
    rw [String.toList_append, List.length_append, Nat.toList_repr]
    change 2 ≤ 1 + _
    omega
  unfold tokenOf
  dsimp only
  rw [hlower, if_neg, if_neg]
  · simp only [Bool.and_eq_true, decide_eq_true_eq, not_and]
    omega
  · rw [List.isEmpty_iff, ← List.length_eq_zero_iff]
    omega

theorem tokenize_spaced (numbers : List ℕ) :
    tokenize asciiTables (spaced (numbers.map numbered)) = numbers.map numbered := by
  have hspace : (!asciiTables.isAlphanumeric ' ') = true := by decide
  have hchars : ∀ word ∈ numbers.map numbered, ∀ c ∈ word.toList,
      (!asciiTables.isAlphanumeric c) = false := by
    intro word hword c hc
    obtain ⟨i, -, rfl⟩ := List.mem_map.1 hword
    exact congrArg not (isAlphanum_of_mem_numbered hc).1
  have hpieces : ∀ numbers : List ℕ, (((numbers.map numbered).map String.toList).map
      String.ofList).filterMap (tokenOf asciiTables) = numbers.map numbered := by
    intro numbers
    induction numbers with
    | nil => rfl
    | cons i numbers ih =>
      simp only [map_cons, String.ofList_toList]
      rw [filterMap_cons_some (tokenOf_numbered i), ih]
  unfold tokenize
  rw [splitOnP_spaced hspace hchars, map_cons, filterMap_cons_none rfl]
  exact hpieces numbers

/-- Two pages: one with the first `n` tokens, one with one token more. -/
def nearlyEqual (n : ℕ) : List IndexUpdate :=
  [.add "a" (spaced ((List.range n).map numbered)),
    .add "b" (spaced ((List.range (n + 1)).map numbered))]

def longQuery (n : ℕ) : String := spaced ((List.range (n + 1)).map numbered)

theorem numbered_injective : Function.Injective numbered :=
  fun _ _ h => append_toString_injective "t" h

theorem queryTokens_longQuery (n : ℕ) :
    (queryTokens asciiTables (longQuery n)).Perm ((List.range (n + 1)).map numbered) := by
  unfold queryTokens longQuery
  rw [tokenize_spaced]
  refine (perm_ext_iff_of_nodup (OrdSet.nodup _) ?_).2 fun token => OrdSet.mem_ofList
  exact nodup_range.map numbered_injective

theorem posted_nearlyEqual (n : ℕ) (token page : String) :
    (run asciiTables (nearlyEqual n)).posted token page = true ↔
      page = "a" ∧ token ∈ (List.range n).map numbered ∨
        page = "b" ∧ token ∈ (List.range (n + 1)).map numbered := by
  change ((new.addPage asciiTables "a" _).addPage asciiTables "b" _).posted token page = true ↔ _
  rw [posted_addPage, posted_addPage, posted_new, tokenize_spaced, tokenize_spaced]
  simp only [Bool.or_eq_true, decide_eq_true_eq, Bool.false_eq_true, false_or]

theorem numbered_mem_iff {n i : ℕ} : numbered i ∈ (List.range n).map numbered ↔ i < n := by
  rw [List.mem_map_of_injective numbered_injective, mem_range]

theorem hitCount_nearlyEqual (n : ℕ) (page : String) :
    hitCount asciiTables (run asciiTables (nearlyEqual n)) (longQuery n) page =
      if page = "a" then n else if page = "b" then n + 1 else 0 := by
  have hposted : ∀ i, (run asciiTables (nearlyEqual n)).posted (numbered i) page = true ↔
      page = "a" ∧ i < n ∨ page = "b" ∧ i < n + 1 := by
    intro i
    rw [posted_nearlyEqual, numbered_mem_iff, numbered_mem_iff]
  unfold hitCount
  rw [(queryTokens_longQuery n).countP_eq, countP_map, range_succ, countP_append]
  split_ifs with ha hb
  · subst ha
    rw [countP_eq_length.2, countP_eq_zero.2, length_range]
    · rfl
    · intro i hi
      rw [mem_singleton] at hi
      simp [hposted, hi]
    · intro i hi
      simpa [hposted] using mem_range.1 hi
  · subst hb
    rw [countP_eq_length.2, countP_eq_length.2, length_range]
    · rfl
    · intro i hi
      rw [mem_singleton] at hi
      simp [hposted, hi]
    · intro i hi
      have hlt := mem_range.1 hi
      simp only [Function.comp_apply, hposted, true_and]
      omega
  · rw [countP_eq_zero.2, countP_eq_zero.2]
    · exact fun i _ => by simp [hposted, ha, hb]
    · exact fun i _ => by simp [hposted, ha, hb]

theorem ranked_nearlyEqual {n : ℕ} (hn : 0 < n)
    (hscore : f32Quotient n (n + 1) = f32Quotient (n + 1) (n + 1)) :
    ranked asciiTables (run asciiTables (nearlyEqual n)) (longQuery n) =
      [⟨"a", f32Quotient n (n + 1), none⟩, ⟨"b", f32Quotient n (n + 1), none⟩] := by
  have hlength : (queryTokens asciiTables (longQuery n)).length = n + 1 := by
    rw [(queryTokens_longQuery n).length_eq, List.length_map, length_range]
  refine eq_of_pairwise_lt ranked_pairwise ?_ fun hit => ?_
  · refine pairwise_pair.2 (hitKey_lt_iff.2 (.inr ⟨rfl, ?_⟩))
    show "a" < "b"
    decide
  · rw [mem_ranked, hitCount_nearlyEqual, hlength]
    simp only [mem_cons, not_mem_nil, or_false]
    split_ifs with ha hb
    · rw [ha]
      refine ⟨fun h => .inl h.2, fun h => ⟨hn, ?_⟩⟩
      rcases h with h | h
      · exact h
      · rw [h] at ha
        exact absurd ha (show ¬"b" = "a" by decide)
    · rw [hb, ← hscore]
      refine ⟨fun h => .inr h.2, fun h => ⟨Nat.succ_pos n, ?_⟩⟩
      rcases h with h | h
      · rw [h] at hb
        exact absurd hb (show ¬"a" = "b" by decide)
      · exact h
    · refine iff_of_false (fun h => absurd h.1 (lt_irrefl 0)) ?_
      rintro (h | h)
      · exact ha (by rw [h])
      · exact hb (by rw [h])

theorem roundTo_succ : roundTo 24 ((2 ^ 24 + 1 : ℕ) : ℚ) = (2 ^ 24 : ℕ) := by
  have hlog : Int.log 2 ((2 ^ 24 + 1 : ℕ) : ℚ) = 24 := by
    rw [Int.log_natCast, Nat.log_eq_of_pow_le_of_lt_pow (m := 24) (by norm_num) (by norm_num)]
    rfl
  have hplace : lastPlace 24 ((2 ^ 24 + 1 : ℕ) : ℚ) = 2 := by
    unfold lastPlace
    rw [hlog]
    norm_num
  have hfloor : ⌊((2 ^ 24 + 1 : ℕ) : ℚ) / 2⌋ = 2 ^ 23 := by
    rw [Int.floor_eq_iff]
    norm_num
  have hround : roundHalfEven (((2 ^ 24 + 1 : ℕ) : ℚ) / 2) = 2 ^ 23 := by
    unfold roundHalfEven
    rw [hfloor, if_neg (by norm_num), if_neg (by norm_num), if_pos (by norm_num)]
  unfold roundTo
  rw [hplace, hround]
  norm_num

theorem f32Quotient_eq_one {m : ℕ} (hm : m = 2 ^ 24 ∨ m = 2 ^ 24 + 1) :
    f32Quotient m (2 ^ 24 + 1) = 1 := by
  have hexact : roundTo 24 ((2 ^ 24 : ℕ) : ℚ) = (2 ^ 24 : ℕ) := by
    simpa using roundTo_natCast_mul_zpow (p := 24) (by decide) (Nat.two_pow_pos 24) le_rfl 0
  have hone : roundTo 24 1 = 1 := by
    simpa using roundTo_natCast_mul_zpow (p := 24) (by decide) Nat.one_pos (by norm_num) 0
  have hleft : roundTo 24 (m : ℚ) = (2 ^ 24 : ℕ) := by
    rcases hm with rfl | rfl
    · exact hexact
    · exact roundTo_succ
  unfold f32Quotient
  rw [hleft, roundTo_succ, div_self (by norm_num), hone]

end

def Iteration.sorted (U : UnicodeTables) (idx : InvertedIndex) (query : String) :
    Iteration U idx query where
  tokens := queryTokens U query
  tokens_perm := .rfl
  pages term := ((idx.terms.get? term).map OrdSet.toList).getD []
  pages_perm term set hset := by rw [hset]; exact .rfl
  hits := (countHits idx _ (queryTokens U query)).entries
  hits_perm := .rfl

/-- A page with one token less than another one comes before it. -/
theorem search_not_by_hitCount : ¬∀ (updates : List IndexUpdate) (query : String)
      (iteration : Iteration asciiTables (run asciiTables updates) query) (maxResults : ℕ),
      (iteration.search maxResults).Pairwise fun a b =>
        hitCount asciiTables (run asciiTables updates) query b.name <
            hitCount asciiTables (run asciiTables updates) query a.name ∨
          hitCount asciiTables (run asciiTables updates) query a.name =
              hitCount asciiTables (run asciiTables updates) query b.name ∧ a.name < b.name := by
  intro h
  have hsorted := h (nearlyEqual (2 ^ 24)) (longQuery (2 ^ 24)) (Iteration.sorted _ _ _) 2
  have hscore : f32Quotient (2 ^ 24) (2 ^ 24 + 1) = f32Quotient (2 ^ 24 + 1) (2 ^ 24 + 1) :=
    (f32Quotient_eq_one (.inl rfl)).trans (f32Quotient_eq_one (.inr rfl)).symm
  rw [Iteration.search_eq, ranked_nearlyEqual (Nat.two_pow_pos 24) hscore] at hsorted
  have hpair := pairwise_pair.1 hsorted
  rw [hitCount_nearlyEqual, hitCount_nearlyEqual, if_pos rfl, if_neg (by decide),
    if_pos rfl] at hpair
  omega

end InvertedIndex

end Gadgetron.Knowledge
