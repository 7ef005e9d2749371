import Gadgetron.Knowledge.Chunking
import Gadgetron.Lib.Exec

/-!
# The sizes of chunks

The loop of `merge_small_chunks` goes forward over chunks that are long enough, stays where it
merges a short one with the next and goes back where it merges the last one with the one before.
-/

namespace Gadgetron.Knowledge

open Lib List

/-- The variables of the loop in `merge_small_chunks`. -/
structure Merging where
  chunks : List ChunkDraft
  idx : ℕ

/-- One turn of the loop; `none` where it is left. -/
def Merging.turn (s : Merging) : Option Merging :=
  match s.chunks[s.idx]? with
  | none => none
  | some chunk =>
    if chunkMinTokens ≤ countTokens chunk.content then some { s with idx := s.idx + 1 }
    else
      match s.chunks[s.idx + 1]? with
      | some next => some
          { s with chunks := (s.chunks.eraseIdx (s.idx + 1)).set s.idx (chunk.absorb next) }
      | none =>
        if 0 < s.idx then
          match s.chunks[s.idx - 1]? with
          | some prev => some
              { chunks := (s.chunks.eraseIdx s.idx).set (s.idx - 1) (prev.absorb chunk)
                idx := s.idx - 1 }
          | none => none
        else none

abbrev mergeMachine : Machine Merging Unit := ⟨fun s _ => s.turn⟩

inductive Turned (s : Merging) : Merging → Prop
  | pass (chunk : ChunkDraft) (h : s.chunks[s.idx]? = some chunk)
      (hmin : chunkMinTokens ≤ countTokens chunk.content) : Turned s { s with idx := s.idx + 1 }
  | absorb (chunk next : ChunkDraft) (h : s.chunks[s.idx]? = some chunk)
      (hmin : countTokens chunk.content < chunkMinTokens)
      (hnext : s.chunks[s.idx + 1]? = some next) :
      Turned s { s with chunks := (s.chunks.eraseIdx (s.idx + 1)).set s.idx (chunk.absorb next) }
  | goBack (chunk prev : ChunkDraft) (i : ℕ) (hi : s.idx = i + 1)
      (h : s.chunks[s.idx]? = some chunk) (hmin : countTokens chunk.content < chunkMinTokens)
      (hlast : s.chunks.length = s.idx + 1) (hprev : s.chunks[i]? = some prev) :
      Turned s ⟨(s.chunks.eraseIdx (i + 1)).set i (prev.absorb chunk), i⟩

variable {chunks : List ChunkDraft} {s s' : Merging}

theorem length_eq_of_getElem? {chunk : ChunkDraft} {i : ℕ} (h : chunks[i]? = some chunk)
    (hnext : chunks[i + 1]? = none) : chunks.length = i + 1 := by
  have hlt := (List.getElem?_eq_some_iff.1 h).1
  have hle := List.getElem?_eq_none_iff.1 hnext
  omega

theorem turned_of_turn (h : s.turn = some s') : Turned s s' := by
  unfold Merging.turn at h
  split at h
  · cases h
  next chunk hchunk =>
    by_cases hmin : chunkMinTokens ≤ countTokens chunk.content
    · rw [if_pos hmin] at h
      cases h
      exact .pass chunk hchunk hmin
    · rw [if_neg hmin] at h
      split at h
      next next hnext =>
        cases h
        exact .absorb chunk next hchunk (by omega) hnext
      next hnext =>
        split_ifs at h with hidx
        split at h
        next prev hprev =>
          cases h
          obtain ⟨i, hi⟩ := Nat.exists_eq_add_of_lt hidx
          rw [Nat.zero_add] at hi
          rw [show s.idx - 1 = i by omega] at hprev ⊢
          rw [hi]
          exact .goBack chunk prev i hi hchunk (by omega) (length_eq_of_getElem? hchunk hnext) hprev
        next => cases h

theorem left_cases (h : s.turn = none) : s.chunks.length ≤ s.idx ∨ s.chunks.length = 1 := by
  unfold Merging.turn at h
  split at h
  next hnone => exact .inl (List.getElem?_eq_none_iff.1 hnone)
  next chunk hchunk =>
    by_cases hmin : chunkMinTokens ≤ countTokens chunk.content
    · rw [if_pos hmin] at h
      cases h
    rw [if_neg hmin] at h
    split at h
    · cases h
    next hnext =>
      have hlength := length_eq_of_getElem? hchunk hnext
      split_ifs at h with hidx
      · split at h
        · cases h
        next hprev =>
          have hle := List.getElem?_eq_none_iff.1 hprev
          omega
      · exact .inr (by omega)

theorem mergeSmallFrom_of_left (h : s.turn = none) : mergeSmallFrom s.chunks s.idx = s.chunks := by
  unfold Merging.turn at h
  fun_cases mergeSmallFrom s.chunks s.idx <;> simp_all

theorem mergeSmallFrom_of_turn (h : s.turn = some s') :
    mergeSmallFrom s.chunks s.idx = mergeSmallFrom s'.chunks s'.idx := by
  unfold Merging.turn at h
  fun_cases mergeSmallFrom s.chunks s.idx <;> simp_all <;> rw [← h]

/-! ## Its end -/

def Merging.rank (s : Merging) : ℕ := 2 * s.chunks.length - s.idx

theorem rank_lt_of_turned (h : Turned s s') : s'.rank < s.rank := by
  unfold Merging.rank
  cases h with
  | pass chunk h hmin =>
    have hlt := (List.getElem?_eq_some_iff.1 h).1
    dsimp only
    omega
  | absorb chunk next h hmin hnext =>
    have hlt := (List.getElem?_eq_some_iff.1 hnext).1
    dsimp only
    rw [length_set, length_eraseIdx_of_lt hlt]
    omega
  | goBack chunk prev i hi h hmin hlast hprev =>
    dsimp only
    rw [length_set, length_eraseIdx_of_lt (by omega)]
    omega

theorem exists_exec_mergeSmallFrom (s : Merging) : ∃ turns ≤ s.rank, ∃ t,
    mergeMachine.exec s (List.replicate turns ()) = some t ∧ t.turn = none ∧
      mergeSmallFrom s.chunks s.idx = t.chunks := by
  induction hn : s.rank using Nat.strong_induction_on generalizing s with
  | _ n ih =>
    cases hturn : s.turn with
    | none => exact ⟨0, Nat.zero_le n, s, rfl, hturn, mergeSmallFrom_of_left hturn⟩
    | some s' =>
      have hlt := rank_lt_of_turned (turned_of_turn hturn)
      obtain ⟨turns, hle, t, hrun, hleft, hresult⟩ := ih s'.rank (hn ▸ hlt) s' rfl
      refine ⟨turns + 1, by omega, t, ?_, hleft, ?_⟩
      · exact (Machine.exec_cons_eq_some _).2 ⟨s', hturn, hrun⟩
      · rw [mergeSmallFrom_of_turn hturn, hresult]

/-! ## What is passed, and how much a chunk takes in -/

theorem countTokens_joinChunks (left right : List Char) :
    countTokens (joinChunks left right) = countTokens left + countTokens right := by
  rw [countTokens, words_joinChunks, List.length_append]
  rfl

theorem countTokens_absorb (left right : ChunkDraft) : countTokens (left.absorb right).content =
      countTokens left.content + countTokens right.content :=
  countTokens_joinChunks left.content right.content

theorem getElem?_merged {chunk merged : ChunkDraft} {i j : ℕ}
    (h : ((chunks.eraseIdx (i + 1)).set i merged)[j]? = some chunk) :
    j < i ∧ chunks[j]? = some chunk ∨ j = i ∧ chunk = merged ∨
      i < j ∧ chunks[j + 1]? = some chunk := by
  rw [getElem?_set] at h
  by_cases hij : i = j
  · subst hij
    rw [if_pos rfl] at h
    split_ifs at h
    exact .inr (.inl ⟨rfl, (Option.some.inj h).symm⟩)
  · rw [if_neg hij, getElem?_eraseIdx] at h
    split_ifs at h with hlt
    · exact .inl ⟨by omega, h⟩
    · exact .inr (.inr ⟨by omega, h⟩)

def Merging.Passed (s : Merging) : Prop :=
  ∀ (j : ℕ) (chunk : ChunkDraft), j < s.idx → s.chunks[j]? = some chunk →
    chunkMinTokens ≤ countTokens chunk.content

def Merging.Bounded (max : ℕ) (s : Merging) : Prop :=
  (∀ (j : ℕ) (chunk : ChunkDraft), s.chunks[j]? = some chunk →
    countTokens chunk.content < max + chunkMinTokens ∧
      (s.idx < j → countTokens chunk.content ≤ max)) ∨
  s.chunks.length ≤ s.idx + 1 ∧ ∀ (j : ℕ) (chunk : ChunkDraft), s.chunks[j]? = some chunk →
    chunkMinTokens ≤ countTokens chunk.content ∧
      countTokens chunk.content ≤ max + 2 * (chunkMinTokens - 1)

theorem passed_turned (hs : s.Passed) (h : Turned s s') : s'.Passed := by
  intro j other hj hother
  cases h with
  | pass chunk h hmin =>
    rcases Nat.lt_succ_iff_lt_or_eq.1 hj with hlt | rfl
    · exact hs j other hlt hother
    · rw [h] at hother
      exact Option.some.inj hother ▸ hmin
  | absorb chunk next h hmin hnext =>
    dsimp only at hj
    rcases getElem?_merged hother with ⟨-, hold⟩ | ⟨rfl, -⟩ | ⟨hlt, -⟩
    · exact hs j other hj hold
    · exact absurd hj (lt_irrefl _)
    · omega
  | goBack chunk prev i hi h hmin hlast hprev =>
    dsimp only at hj
    rcases getElem?_merged hother with ⟨-, hold⟩ | ⟨rfl, -⟩ | ⟨hlt, -⟩
    · exact hs j other (by omega) hold
    · exact absurd hj (lt_irrefl _)
    · omega

variable {max : ℕ}

theorem bounded_turned (hpassed : s.Passed) (hs : s.Bounded max) (h : Turned s s') :
    s'.Bounded max := by
  cases h with
  | pass chunk h hmin =>
    rcases hs with hall | ⟨hlength, hall⟩
    · refine .inl fun j other hother => ⟨(hall j other hother).1, fun hj => ?_⟩
      dsimp only at hj
      exact (hall j other hother).2 (by omega)
    · exact .inr ⟨by dsimp only; omega, hall⟩
  | absorb chunk next h hmin hnext =>
    have hmerged := countTokens_absorb chunk next
    rcases hs with hall | ⟨hlength, -⟩
    · have hnextMax := (hall _ next hnext).2 (by omega)
      refine .inl fun j other hother => ?_
      dsimp only
      rcases getElem?_merged hother with ⟨hlt, hold⟩ | ⟨rfl, rfl⟩ | ⟨hlt, hold⟩
      · exact ⟨(hall j other hold).1, fun hj => absurd hj (by omega)⟩
      · exact ⟨by omega, fun hj => absurd hj (lt_irrefl _)⟩
      · exact ⟨(hall _ other hold).1, fun _ => (hall _ other hold).2 (by omega)⟩
    · have hlt := (List.getElem?_eq_some_iff.1 hnext).1
      omega
  | goBack chunk prev i hi h hmin hlast hprev =>
    have hmerged := countTokens_absorb prev chunk
    have hprevMin := hpassed i prev (by omega) hprev
    have hbounded : ∀ (j : ℕ) (old : ChunkDraft), s.chunks[j]? = some old →
        countTokens old.content ≤ max + (chunkMinTokens - 1) := by
      intro j old hold
      rcases hs with hall | ⟨-, hall⟩
      · have := (hall j old hold).1
        omega
      · have := (hall _ chunk h).1
        omega
    refine .inr ⟨?_, fun j other hother => ?_⟩
    · dsimp only
      rw [length_set, length_eraseIdx_of_lt (by omega)]
      omega
    · rcases getElem?_merged hother with ⟨hlt, hold⟩ | ⟨rfl, rfl⟩ | ⟨hlt, hold⟩
      · have := hbounded j other hold
        exact ⟨hpassed j other (by omega) hold, by omega⟩
      · have := hbounded _ prev hprev
        exact ⟨by omega, by omega⟩
      · have := (List.getElem?_eq_some_iff.1 hold).1
        omega

/-! ## The result -/

theorem passed_initial : (Merging.mk chunks 0).Passed := fun j _ hj => absurd hj (Nat.not_lt_zero j)

theorem bounded_initial (h : ∀ chunk ∈ chunks, countTokens chunk.content ≤ max) :
    (Merging.mk chunks 0).Bounded max := by
  refine .inl fun j chunk hchunk => ?_
  have hle := h chunk (mem_of_getElem? hchunk)
  have hmin : 0 < chunkMinTokens := by decide
  exact ⟨by omega, fun _ => hle⟩

theorem mergeSmallFrom_induct {I : Merging → Prop} (hstart : I s)
    (hturn : ∀ s s', I s → Turned s s' → I s') :
    ∃ t : Merging, I t ∧ t.turn = none ∧ mergeSmallFrom s.chunks s.idx = t.chunks := by
  obtain ⟨turns, -, t, hrun, hleft, hresult⟩ := exists_exec_mergeSmallFrom s
  refine ⟨t, ?_, hleft, hresult⟩
  exact Machine.invariant mergeMachine
    (fun s₁ _ s₂ hs hstep => hturn s₁ s₂ hs (turned_of_turn hstep)) hstart hrun

theorem long_mergeSmallFrom (h : 1 < (mergeSmallFrom chunks 0).length) :
    ∀ chunk ∈ mergeSmallFrom chunks 0, chunkMinTokens ≤ countTokens chunk.content := by
  obtain ⟨t, hpassed, hleft, hresult⟩ :=
    mergeSmallFrom_induct (s := ⟨chunks, 0⟩) passed_initial fun _ _ => passed_turned
  rw [hresult] at h ⊢
  intro chunk hchunk
  obtain ⟨j, hj⟩ := getElem?_of_mem hchunk
  have hlt := (List.getElem?_eq_some_iff.1 hj).1
  rcases left_cases hleft with hend | hone
  · exact hpassed j chunk (by omega) hj
  · omega

theorem bounded_mergeSmallFrom (h : ∀ chunk ∈ chunks, countTokens chunk.content ≤ max) :
    ∀ chunk ∈ mergeSmallFrom chunks 0,
      countTokens chunk.content ≤ max + 2 * (chunkMinTokens - 1) := by
  obtain ⟨t, ⟨-, hbounded⟩, -, hresult⟩ :=
    mergeSmallFrom_induct (I := fun s => s.Passed ∧ s.Bounded max)
      ⟨passed_initial, bounded_initial h⟩ fun _ _ hs hturned =>
        ⟨passed_turned hs.1 hturned, bounded_turned hs.1 hs.2 hturned⟩
  rw [hresult]
  intro chunk hchunk
  obtain ⟨j, hj⟩ := getElem?_of_mem hchunk
  rcases hbounded with hall | ⟨-, hall⟩
  · have hlt := (hall j chunk hj).1
    have hmin : 1 < chunkMinTokens := by decide
    omega
  · exact (hall j chunk hj).2

/-! ## Paragraphs -/

/-- Neither what is packed nor what is being packed has more than `max` tokens. -/
def PackedWithin (acc : List ChunkDraft × List Char) : Prop :=
  (∀ draft ∈ acc.1, countTokens draft.content ≤ chunkMaxTokens) ∧ countTokens acc.2 ≤ chunkMaxTokens

theorem packedWithin_nil : PackedWithin ([], []) :=
  ⟨fun _ hdraft => absurd hdraft not_mem_nil, by decide⟩

variable {acc : List ChunkDraft × List Char}

theorem PackedWithin.push (h : PackedWithin acc) (sectionName : Option (List Char)) :
    ∀ draft ∈ acc.1 ++ [⟨sectionName, acc.2⟩], countTokens draft.content ≤ chunkMaxTokens := by
  intro draft hdraft
  rcases mem_append.1 hdraft with hout | hlast
  · exact h.1 draft hout
  · rw [mem_singleton.1 hlast]
    exact h.2

theorem packedWithin_packParagraph {sectionName : Option (List Char)} {paragraph : List Char}
    (h : PackedWithin acc)
    (hparagraph : countTokens paragraph ≤ chunkMaxTokens) :
    PackedWithin (packParagraph sectionName acc paragraph) := by
  have hpush := h.push sectionName
  obtain ⟨out, current⟩ := acc
  have hlong : ¬chunkMaxTokens < countTokens paragraph := by omega
  unfold packParagraph
  dsimp only
  by_cases hempty : current.isEmpty = true
  · rw [if_pos hempty, if_neg hlong]
    exact ⟨h.1, hparagraph⟩
  · rw [if_neg hempty]
    split_ifs with hroom
    · exact ⟨h.1, hroom⟩
    · exact ⟨hpush, hparagraph⟩

theorem packedWithin_foldl (sectionName : Option (List Char)) {paragraphs : List (List Char)}
    (hparagraphs : ∀ paragraph ∈ paragraphs, countTokens paragraph ≤ chunkMaxTokens)
    (h : PackedWithin acc) : PackedWithin (paragraphs.foldl (packParagraph sectionName) acc) := by
  induction paragraphs generalizing acc with
  | nil => exact h
  | cons paragraph paragraphs ih =>
    obtain ⟨hparagraph, hrest⟩ := forall_mem_cons.1 hparagraphs
    exact ih hrest (packedWithin_packParagraph h hparagraph)

theorem countTokens_of_paragraphs {content : List Char}
    (hone : (splitParagraphs content).length ≤ 1)
    (h : ∀ paragraph ∈ splitParagraphs content, countTokens paragraph ≤ chunkMaxTokens) :
    countTokens content ≤ chunkMaxTokens := by
  rw [countTokens, ← words_splitParagraphs content]
  generalize splitParagraphs content = paragraphs at hone h
  rcases paragraphs with _ | ⟨paragraph, _ | ⟨other, rest⟩⟩
  · exact Nat.zero_le _
  · rw [flatMap_singleton]
    exact h paragraph (mem_singleton_self paragraph)
  · exact absurd hone (by simp)

theorem splitOversizeSection_le {draft : ChunkDraft}
    (h : ∀ paragraph ∈ splitParagraphs draft.content, countTokens paragraph ≤ chunkMaxTokens) :
    ∀ part ∈ splitOversizeSection draft, countTokens part.content ≤ chunkMaxTokens := by
  unfold splitOversizeSection
  by_cases hshort : countTokens draft.content ≤ chunkMaxTokens
  · rw [if_pos hshort]
    exact fun part hpart => mem_singleton.1 hpart ▸ hshort
  rw [if_neg hshort]
  have hmany : ¬(splitParagraphs draft.content).length ≤ 1 := fun hone =>
    hshort (countTokens_of_paragraphs hone h)
  have hpacked := packedWithin_foldl draft.sectionName h packedWithin_nil
  have hwords :=
    foldl_packParagraph_words draft.sectionName (splitParagraphs draft.content) ([], [])
  rw [words_splitParagraphs] at hwords
  dsimp only
  rw [if_neg hmany]
  generalize (splitParagraphs draft.content).foldl (packParagraph draft.sectionName) ([], []) = acc
    at hpacked hwords
  have hout : ∀ part ∈ (if acc.2.isEmpty then acc.1 else acc.1 ++ [⟨draft.sectionName, acc.2⟩]),
      countTokens part.content ≤ chunkMaxTokens := by
    intro part hpart
    split_ifs at hpart with hempty
    · exact hpacked.1 part hpart
    · exact hpacked.push draft.sectionName part hpart
  split_ifs with hempty hnone hnone
  · -- nothing packed, so the section has no words at all
    rw [List.isEmpty_iff.1 hempty, List.isEmpty_iff.1 hnone] at hwords
    refine absurd ?_ hshort
    rw [countTokens, ← show _ = words isWhitespace draft.content from hwords]
    exact Nat.zero_le _
  · rwa [if_pos ‹_›] at hout
  · exact absurd hnone (by simp)
  · rwa [if_neg ‹_›] at hout

/-! ## The page -/

theorem mergeSmallFrom_of_short (h : chunks.length < 2) : mergeSmallFrom chunks 0 = chunks := by
  have hturn : ∀ s s' : Merging, s.chunks = chunks → Turned s s' → s'.chunks = chunks := by
    intro s s' hs hturned
    cases hturned with
    | pass chunk hchunk hmin => exact hs
    | absorb chunk next hchunk hmin hnext =>
      have hlt := (List.getElem?_eq_some_iff.1 hnext).1
      rw [hs] at hlt
      omega
    | goBack chunk prev i hi hchunk hmin hlast hprev =>
      rw [hs] at hlast
      omega
  obtain ⟨t, ht, -, hresult⟩ :=
    mergeSmallFrom_induct (s := ⟨chunks, 0⟩) (I := fun s => s.chunks = chunks) rfl hturn
  rw [hresult, ht]

theorem contents_chunkPage (pageName : String) (body : List Char) :
    chunkPage pageName body = [] ∨ (chunkPage pageName body).map Chunk.content =
      (mergeSmallFrom ((splitSections body).flatMap splitOversizeSection) 0).map
        ChunkDraft.content := by
  unfold chunkPage
  by_cases hblank : (strip isWhitespace body).isEmpty = true
  · rw [if_pos hblank]
    exact .inl rfl
  rw [if_neg hblank]
  dsimp only
  generalize (splitSections body).flatMap splitOversizeSection = drafts
  have hmerged : (if 1 < drafts.length then mergeSmallChunks drafts else drafts) =
      mergeSmallFrom drafts 0 := by
    unfold mergeSmallChunks
    by_cases hmany : 1 < drafts.length
    · rw [if_pos hmany, if_neg (by omega)]
    · rw [if_neg hmany, mergeSmallFrom_of_short (by omega)]
  rw [hmerged, List.map_map]
  refine .inr ?_
  conv_rhs => rw [← zipIdx_map_fst 0 (mergeSmallFrom drafts 0), List.map_map]
  rfl

/-- Merging ends, and the chunks are within the sizes unless a paragraph is too long. -/
theorem chunkPage_sizes (pageName : String) (body : List Char) :
    (∃ turns ≤ 2 * ((splitSections body).flatMap splitOversizeSection).length, ∃ t,
      mergeMachine.exec ⟨(splitSections body).flatMap splitOversizeSection, 0⟩
          (List.replicate turns ()) = some t ∧ t.turn = none ∧
        mergeSmallFrom ((splitSections body).flatMap splitOversizeSection) 0 = t.chunks) ∧
      (1 < (chunkPage pageName body).length → ∀ chunk ∈ chunkPage pageName body,
        chunkMinTokens ≤ countTokens chunk.content) ∧
      ((∀ draft ∈ splitSections body, ∀ paragraph ∈ splitParagraphs draft.content,
          countTokens paragraph ≤ chunkMaxTokens) → ∀ chunk ∈ chunkPage pageName body,
          countTokens chunk.content ≤ chunkMaxTokens + 2 * (chunkMinTokens - 1)) := by
  obtain ⟨turns, hle, t, hrun, hleft, hresult⟩ :=
    exists_exec_mergeSmallFrom ⟨(splitSections body).flatMap splitOversizeSection, 0⟩
  refine ⟨⟨turns, hle, t, hrun, hleft, hresult⟩, ?_⟩
  rcases contents_chunkPage pageName body with hnone | hcontents
  · rw [hnone]
    exact ⟨fun hmany => absurd hmany (by decide), fun _ _ hchunk => absurd hchunk not_mem_nil⟩
  have hdraft : ∀ chunk ∈ chunkPage pageName body,
      ∃ draft ∈ mergeSmallFrom ((splitSections body).flatMap splitOversizeSection) 0,
        draft.content = chunk.content := fun chunk hchunk =>
    List.mem_map.1 (hcontents ▸ List.mem_map_of_mem hchunk)
  constructor
  · intro hmany chunk hchunk
    obtain ⟨draft, hdraft, hcontent⟩ := hdraft chunk hchunk
    rw [← hcontent]
    have hlength := congrArg List.length hcontents
    rw [List.length_map, List.length_map] at hlength
    exact long_mergeSmallFrom (hlength ▸ hmany) draft hdraft
  · intro hparagraphs chunk hchunk
    obtain ⟨draft, hdraft, hcontent⟩ := hdraft chunk hchunk
    rw [← hcontent]
    refine bounded_mergeSmallFrom (fun part hpart => ?_) draft hdraft
    obtain ⟨sec, hsec, hpart⟩ := mem_flatMap.1 hpart
    exact splitOversizeSection_le (hparagraphs sec hsec) part hpart

end Gadgetron.Knowledge
