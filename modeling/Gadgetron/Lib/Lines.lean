import Mathlib.Data.List.DropRight
import Mathlib.Data.List.Basic

/-!
# Texts cut at a line

A text over an arbitrary alphabet with a line separator `nl` is cut at the first of its lines that
satisfies `p`.
-/

namespace Lib

open List

variable {α : Type*} {nl : α} {p : List α → Prop}

theorem isPrefixOf?_eq_some_iff [BEq α] [LawfulBEq α] {p l rest : List α} :
    p.isPrefixOf? l = some rest ↔ l = p ++ rest := by
  induction p generalizing l with
  | nil => simp [List.isPrefixOf?]
  | cons a p ih =>
    cases l with
    | nil => simp [List.isPrefixOf?]
    | cons b l =>
      by_cases h : a = b
      · subst h
        simp [List.isPrefixOf?, ih]
      · simp [List.isPrefixOf?, h, Ne.symm h]

/-! ## Lines -/

theorem line_induction (nl : α) {motive : List α → Prop} (last : ∀ l, nl ∉ l → motive l)
    (cons : ∀ l rest, nl ∉ l → motive rest → motive (l ++ nl :: rest)) (text : List α) :
    motive text := by
  induction hn : text.length using Nat.strong_induction_on generalizing text with
  | _ n ih =>
    by_cases h : nl ∈ text
    · obtain ⟨l, rest, rfl, hl⟩ := eq_append_cons_of_mem h
      refine cons l rest hl (ih rest.length ?_ rest rfl)
      rw [List.length_append, length_cons] at hn
      omega
    · exact last text h

/-- A text of complete lines, each of which satisfies `p`. -/
inductive Lines (nl : α) (p : List α → Prop) : List α → Prop
  | nil : Lines nl p []
  | cons {l rest : List α} : nl ∉ l → p l → Lines nl p rest → Lines nl p (l ++ nl :: rest)

theorem append_separator_inj {l m s t : List α} (hl : nl ∉ l) (hm : nl ∉ m)
    (h : l ++ nl :: s = m ++ nl :: t) : l = m ∧ s = t := by
  induction l generalizing m with
  | nil =>
    cases m with
    | nil => exact ⟨rfl, (cons.inj h).2⟩
    | cons b m => exact absurd (cons.inj h).1 (ne_of_not_mem_cons hm)
  | cons a l ih =>
    cases m with
    | nil => exact absurd (cons.inj h).1.symm (ne_of_not_mem_cons hl)
    | cons b m =>
      obtain ⟨rfl, htail⟩ := cons.inj h
      obtain ⟨rfl, hs⟩ := ih (not_mem_of_not_mem_cons hl) (not_mem_of_not_mem_cons hm) htail
      exact ⟨rfl, hs⟩

theorem mem_intercalate_singleton {a : α} {ls : List (List α)} (h : a ∈ [nl].intercalate ls) :
    a = nl ∨ ∃ l ∈ ls, a ∈ l := by
  induction ls with
  | nil => cases h
  | cons l ls ih =>
    cases ls with
    | nil =>
      rw [List.intercalate_singleton] at h
      exact .inr ⟨l, mem_singleton_self l, h⟩
    | cons m ms =>
      rw [List.intercalate_cons_cons] at h
      simp only [List.append_assoc, mem_append, mem_singleton] at h
      rcases h with h | rfl | h
      · exact .inr ⟨l, mem_cons_self, h⟩
      · exact .inl rfl
      · rcases ih h with rfl | ⟨l', hl', ha⟩
        · exact .inl rfl
        · exact .inr ⟨l', mem_cons_of_mem l hl', ha⟩

theorem lines_append_cons_iff {l rest : List α} (hl : nl ∉ l) :
    Lines nl p (l ++ nl :: rest) ↔ p l ∧ Lines nl p rest := by
  constructor
  · intro h
    generalize htext : l ++ nl :: rest = text at h
    cases h with
    | nil => simp at htext
    | cons hm hp hrest =>
      obtain ⟨rfl, rfl⟩ := append_separator_inj hl hm htext
      exact ⟨hp, hrest⟩
  · rintro ⟨hp, hrest⟩
    exact .cons hl hp hrest

theorem lines_append_separator_iff [BEq α] [LawfulBEq α] {text : List α} :
    Lines nl p (text ++ [nl]) ↔ ∀ l ∈ text.splitOn nl, p l := by
  induction text using line_induction nl with
  | last l hl =>
    rw [splitOn_eq_singleton hl]
    constructor
    · intro h m hm
      rw [mem_singleton.1 hm]
      exact (lines_append_cons_iff hl).1 h |>.1
    · intro h
      exact (lines_append_cons_iff hl).2 ⟨h l (mem_singleton_self l), .nil⟩
  | cons l rest hl ih =>
    rw [splitOn_append_cons_self_of_not_mem hl, List.append_assoc, cons_append,
      lines_append_cons_iff hl, ih, forall_mem_cons]

theorem notMem_of_mem_splitOn [BEq α] [LawfulBEq α] {text l : List α} (h : l ∈ text.splitOn nl) :
    nl ∉ l := by
  induction text using line_induction nl with
  | last text htext =>
    rw [splitOn_eq_singleton htext] at h
    exact mem_singleton.1 h ▸ htext
  | cons text rest htext ih =>
    rw [splitOn_append_cons_self_of_not_mem htext] at h
    rcases mem_cons.1 h with rfl | h
    · exact htext
    · exact ih h

def splitInclusive [DecidableEq α] (nl : α) : List α → List (List α)
  | [] => []
  | c :: text =>
    if c = nl then [c] :: splitInclusive nl text
    else
      match splitInclusive nl text with
      | [] => [[c]]
      | segment :: segments => (c :: segment) :: segments

variable {l : List α}

theorem splitInclusive_of_notMem [DecidableEq α] (hl : nl ∉ l) (hnil : l ≠ []) :
    splitInclusive nl l = [l] := by
  induction l with
  | nil => exact absurd rfl hnil
  | cons c l ih =>
    have hc : c ≠ nl := (ne_of_not_mem_cons hl).symm
    rcases l.eq_nil_or_concat with rfl | h
    · simp [splitInclusive, hc]
    · rw [splitInclusive, if_neg hc,
        ih (not_mem_of_not_mem_cons hl) (by obtain ⟨_, _, rfl⟩ := h; simp)]

theorem splitInclusive_append_cons [DecidableEq α] (hl : nl ∉ l) (rest : List α) :
    splitInclusive nl (l ++ nl :: rest) = (l ++ [nl]) :: splitInclusive nl rest := by
  induction l with
  | nil => simp [splitInclusive]
  | cons c l ih =>
    have hc : c ≠ nl := (ne_of_not_mem_cons hl).symm
    rw [cons_append, splitInclusive, if_neg hc, ih (not_mem_of_not_mem_cons hl)]
    rfl

theorem rdropWhile_congr {q r : α → Bool} (h : ∀ a ∈ l, q a = r a) :
    l.rdropWhile q = l.rdropWhile r := by
  induction l using List.reverseRecOn with
  | nil => rfl
  | append_singleton l a ih =>
    have hl : l.rdropWhile q = l.rdropWhile r := ih fun b hb => h b (by simp [hb])
    rw [rdropWhile_concat, rdropWhile_concat, h a (by simp), hl]

/-! ## Cuts -/

/-- The text is cut at its first line that satisfies `p`. -/
inductive CutAt (nl : α) (p : List α → Prop) : List α → List α → List α → Prop
  | last {l : List α} : nl ∉ l → p l → CutAt nl p l [] []
  | here {l after : List α} : nl ∉ l → p l → CutAt nl p (l ++ nl :: after) [] after
  | skip {l text before after : List α} : nl ∉ l → ¬p l → CutAt nl p text before after →
      CutAt nl p (l ++ nl :: text) (l ++ nl :: before) after

theorem cutAt_of_notMem_iff {l before after : List α} (hl : nl ∉ l) :
    CutAt nl p l before after ↔ p l ∧ before = [] ∧ after = [] := by
  constructor
  · intro h
    cases h with
    | last _ hp => exact ⟨hp, rfl, rfl⟩
    | here | skip => simp at hl
  · rintro ⟨hp, rfl, rfl⟩
    exact .last hl hp

theorem cutAt_append_cons_iff {l text before after : List α} (hl : nl ∉ l) :
    CutAt nl p (l ++ nl :: text) before after ↔ (p l ∧ before = [] ∧ after = text) ∨
        (¬p l ∧ ∃ before', before = l ++ nl :: before' ∧ CutAt nl p text before' after) := by
  constructor
  · intro h
    generalize hraw : l ++ nl :: text = raw at h
    cases h with
    | last hm _ => exact absurd (hraw ▸ by simp) hm
    | here hm hp =>
      obtain ⟨rfl, rfl⟩ := append_separator_inj hl hm hraw
      exact .inl ⟨hp, rfl, rfl⟩
    | skip hm hp hrest =>
      obtain ⟨rfl, rfl⟩ := append_separator_inj hl hm hraw
      exact .inr ⟨hp, _, rfl, hrest⟩
  · rintro (⟨hp, rfl, rfl⟩ | ⟨hp, before', rfl, hrest⟩)
    · exact .here hl hp
    · exact .skip hl hp hrest

variable {text before after : List α}

theorem CutAt.exists_line (h : CutAt nl p text before after) :
    Lines nl (fun l => ¬p l) before ∧ ∃ l, nl ∉ l ∧ p l ∧
      (text = before ++ l ++ nl :: after ∨ text = before ++ l ∧ after = []) := by
  induction h with
  | last hl hp => exact ⟨.nil, _, hl, hp, .inr ⟨rfl, rfl⟩⟩
  | here hl hp => exact ⟨.nil, _, hl, hp, .inl rfl⟩
  | skip hm hq _ ih =>
    obtain ⟨hlines, l, hl, hp, h⟩ := ih
    refine ⟨.cons hm hq hlines, l, hl, hp, ?_⟩
    rcases h with rfl | ⟨rfl, rfl⟩
    · exact .inl (by simp)
    · exact .inr ⟨by simp, rfl⟩

theorem Lines.cutAt {before l after : List α} (h : Lines nl (fun l => ¬p l) before) (hl : nl ∉ l)
    (hp : p l) : CutAt nl p (before ++ (l ++ nl :: after)) before after := by
  induction h with
  | nil => exact .here hl hp
  | cons hm hq _ ih =>
    rw [List.append_assoc, cons_append]
    exact .skip hm hq ih

theorem CutAt.length_lt (h : CutAt nl p text before after)
    (hp : ¬p []) : after.length < text.length := by
  obtain ⟨-, l, -, hpl, h⟩ := h.exists_line
  have hlen : 0 < l.length := length_pos_iff.2 fun hnil => hp (hnil ▸ hpl)
  rcases h with rfl | ⟨rfl, rfl⟩
  · simp only [List.length_append, length_cons]
    omega
  · simp only [List.length_append, length_nil]
    omega

theorem exists_cutAt_iff [BEq α] [LawfulBEq α] {text : List α} :
    (∃ before after, CutAt nl p text before after) ↔ ∃ l ∈ text.splitOn nl, p l := by
  induction text using line_induction nl with
  | last l hl =>
    rw [splitOn_eq_singleton hl]
    simp [cutAt_of_notMem_iff hl]
  | cons l rest hl ih =>
    rw [splitOn_append_cons_self_of_not_mem hl]
    simp only [cutAt_append_cons_iff hl, mem_cons, exists_eq_or_imp, ← ih]
    by_cases hp : p l
    · simp [hp]
    · constructor
      · rintro ⟨_, after, h⟩
        obtain ⟨-, before', -, hcut⟩ := h.resolve_left fun h => hp h.1
        exact .inr ⟨before', after, hcut⟩
      · intro h
        obtain ⟨before, after, hcut⟩ := h.resolve_left hp
        exact ⟨_, after, .inr ⟨hp, before, rfl, hcut⟩⟩

/-! ## First occurrences -/

section

variable [BEq α] {close l before after : List α}

/-- What stands before the first occurrence of `close`, and what stands after it. -/
def splitAtFirst (close : List α) : List α → Option (List α × List α)
  | [] => none
  | c :: l =>
    match close.isPrefixOf? (c :: l) with
    | some after => some ([], after)
    | none => (splitAtFirst close l).map fun (before, after) => (c :: before, after)

theorem splitAtFirst_cons_eq_some {c : α} (h : splitAtFirst close (c :: l) = some (before, after)) :
    before = [] ∧ close.isPrefixOf? (c :: l) = some after ∨
      ∃ rest, before = c :: rest ∧ close.isPrefixOf? (c :: l) = none ∧
        splitAtFirst close l = some (rest, after) := by
  rw [splitAtFirst] at h
  cases hpre : close.isPrefixOf? (c :: l) with
  | some tail =>
    rw [hpre] at h
    cases h
    exact .inl ⟨rfl, rfl⟩
  | none =>
    rw [hpre] at h
    obtain ⟨⟨rest, tail⟩, hrest, h⟩ := Option.map_eq_some_iff.1 h
    cases h
    exact .inr ⟨rest, rfl, rfl, hrest⟩

variable [LawfulBEq α]

theorem eq_of_splitAtFirst (h : splitAtFirst close l = some (before, after)) :
    l = before ++ close ++ after := by
  induction l generalizing before with
  | nil => cases h
  | cons c l ih =>
    obtain ⟨rfl, hpre⟩ | ⟨rest, rfl, -, hrest⟩ := splitAtFirst_cons_eq_some h
    · exact isPrefixOf?_eq_some_iff.1 hpre
    · exact congrArg (c :: ·) (ih hrest)

theorem splitAtFirst_append (h : splitAtFirst close l = some (before, after)) (r : List α) :
    splitAtFirst close (l ++ r) = some (before, after ++ r) := by
  induction l generalizing before with
  | nil => cases h
  | cons c l ih =>
    obtain ⟨rfl, hpre⟩ | ⟨rest, rfl, hnone, hrest⟩ := splitAtFirst_cons_eq_some h
    · have hsome : close.isPrefixOf? (c :: (l ++ r)) = some (after ++ r) := by
        rw [isPrefixOf?_eq_some_iff, ← cons_append, isPrefixOf?_eq_some_iff.1 hpre,
          List.append_assoc]
      rw [cons_append, splitAtFirst, hsome]
    · have hnone' : close.isPrefixOf? (c :: (l ++ r)) = none := by
        rw [Option.eq_none_iff_forall_ne_some]
        intro tail htail
        have hlonger := eq_of_splitAtFirst hrest
        obtain ⟨m, hm⟩ : close <+: c :: l := by
          refine prefix_of_prefix_length_le ⟨tail, (isPrefixOf?_eq_some_iff.1 htail).symm⟩
            (prefix_append (c :: l) r) ?_
          rw [hlonger]
          simp only [length_cons, List.length_append]
          omega
        rw [isPrefixOf?_eq_some_iff.2 hm.symm] at hnone
        cases hnone
      rw [cons_append, splitAtFirst, hnone', ih hrest]
      rfl

theorem not_mem_of_splitAtFirst {c : α} (h : splitAtFirst [c] l = some (before, after)) :
    c ∉ before := by
  induction l generalizing before with
  | nil => cases h
  | cons d l ih =>
    obtain ⟨rfl, -⟩ | ⟨rest, rfl, hnone, hrest⟩ := splitAtFirst_cons_eq_some h
    · exact not_mem_nil
    · refine not_mem_cons_of_ne_of_not_mem ?_ (ih hrest)
      rintro rfl
      have hsome : List.isPrefixOf? [c] (c :: l) = some l := isPrefixOf?_eq_some_iff.2 rfl
      rw [hsome] at hnone
      cases hnone

theorem splitAtFirst_eq_some (hclose : close ≠ [])
    (h : ∀ s t, before = s ++ t → t ≠ [] → ¬ close <+: t ++ close ++ after) :
    splitAtFirst close (before ++ close ++ after) = some (before, after) := by
  induction before with
  | nil =>
    obtain ⟨c, tail, rfl⟩ := exists_cons_of_ne_nil hclose
    have hsome : (c :: tail).isPrefixOf? (c :: (tail ++ after)) = some after :=
      isPrefixOf?_eq_some_iff.2 rfl
    rw [nil_append, cons_append, splitAtFirst, hsome]
  | cons c before ih =>
    have hnone : close.isPrefixOf? (c :: (before ++ close ++ after)) = none := by
      rw [Option.eq_none_iff_forall_ne_some]
      intro tail htail
      refine h [] (c :: before) rfl (cons_ne_nil _ _) ⟨tail, ?_⟩
      exact (isPrefixOf?_eq_some_iff.1 htail).symm
    rw [cons_append, cons_append, splitAtFirst, hnone,
      ih fun s t hbefore ht => h (c :: s) t (congrArg (c :: ·) hbefore) ht]
    rfl

theorem splitAtFirst_singleton {c : α} (h : c ∉ before) (after : List α) :
    splitAtFirst [c] (before ++ c :: after) = some (before, after) := by
  have hsplit : splitAtFirst [c] (before ++ [c] ++ after) = some (before, after) := by
    refine splitAtFirst_eq_some (cons_ne_nil _ _) fun s t hbefore ht hpre => ?_
    obtain ⟨d, t, rfl⟩ := exists_cons_of_ne_nil ht
    obtain ⟨rfl, -⟩ := cons_prefix_cons.1 hpre
    exact h (hbefore ▸ mem_append_right s mem_cons_self)
  simpa using hsplit

end

end Lib
