import Mathlib.Data.List.Infix

/-!
# Regular expressions and replacement

Regular expressions over characters, the texts they match, and the replacement of all matches from
left to right by a marker. The engine that looks for matches is a parameter.
-/

namespace Lib

open List

inductive Regex
  | empty
  | one (p : Char → Bool)
  | seq (r s : Regex)
  | alt (r s : Regex)
  /-- From `low` repetitions on, to `high` if there is one. -/
  | rep (r : Regex) (low : ℕ) (high : Option ℕ)

namespace Regex

/-- The words of the expression. -/
def Matches : Regex → List Char → Prop
  | empty, w => w = []
  | one p, w => ∃ c, w = [c] ∧ p c
  | seq r s, w => ∃ u v, w = u ++ v ∧ r.Matches u ∧ s.Matches v
  | alt r s, w => r.Matches w ∨ s.Matches w
  | rep r low high, w => ∃ parts : List (List Char), w = parts.flatten ∧ low ≤ parts.length ∧
      (∀ h ∈ high, parts.length ≤ h) ∧ ∀ part ∈ parts, r.Matches part

def minLength : Regex → ℕ
  | empty => 0
  | one _ => 1
  | seq r s => r.minLength + s.minLength
  | alt r s => min r.minLength s.minLength
  | rep r low _ => low * r.minLength

/-- No match contains the character. -/
def avoids (c : Char) : Regex → Bool
  | empty => true
  | one p => !p c
  | seq r s => r.avoids c && s.avoids c
  | alt r s => r.avoids c && s.avoids c
  | rep r _ _ => r.avoids c

theorem mul_le_length_flatten {m : ℕ} {parts : List (List Char)}
    (h : ∀ part ∈ parts, m ≤ part.length) : parts.length * m ≤ parts.flatten.length := by
  induction parts with
  | nil => simp
  | cons part parts ih =>
    rw [flatten_cons, List.length_append, length_cons, Nat.succ_mul]
    have hpart := h part mem_cons_self
    have hparts := ih fun p hp => h p (mem_cons_of_mem _ hp)
    omega

variable {r r' : Regex} {w text : List Char} {start stop : Char}

theorem minLength_le (h : r.Matches w) : r.minLength ≤ w.length := by
  induction r generalizing w with
  | empty => exact Nat.zero_le _
  | one p =>
    obtain ⟨c, rfl, -⟩ := h
    exact le_rfl
  | seq r s ihr ihs =>
    obtain ⟨u, v, rfl, hu, hv⟩ := h
    rw [List.length_append]
    exact Nat.add_le_add (ihr hu) (ihs hv)
  | alt r s ihr ihs =>
    rcases h with h | h
    · exact (min_le_left _ _).trans (ihr h)
    · exact (min_le_right _ _).trans (ihs h)
  | rep r low high ih =>
    obtain ⟨parts, rfl, hlow, -, hparts⟩ := h
    exact (Nat.mul_le_mul_right _ hlow).trans
      (mul_le_length_flatten fun part hpart => ih (hparts part hpart))

theorem notMem_of_avoids {c : Char} (h : r.Matches w) (havoid : r.avoids c) : c ∉ w := by
  induction r generalizing w with
  | empty =>
    rw [show w = [] from h]
    exact not_mem_nil
  | one p =>
    obtain ⟨d, rfl, hd⟩ := h
    rw [mem_singleton]
    rintro rfl
    simp [avoids, hd] at havoid
  | seq r s ihr ihs =>
    obtain ⟨u, v, rfl, hu, hv⟩ := h
    obtain ⟨hr, hs⟩ := Bool.and_eq_true_iff.1 havoid
    rw [mem_append]
    exact not_or.2 ⟨ihr hu hr, ihs hv hs⟩
  | alt r s ihr ihs =>
    obtain ⟨hr, hs⟩ := Bool.and_eq_true_iff.1 havoid
    rcases h with h | h
    · exact ihr h hr
    · exact ihs h hs
  | rep r low high ih =>
    obtain ⟨parts, rfl, -, -, hparts⟩ := h
    intro hmem
    obtain ⟨part, hpart, hc⟩ := mem_flatten.1 hmem
    exact ih (hparts part hpart) havoid hc

/-! ## Texts without a match -/

/-- No part of the text is a match. -/
def Free (r : Regex) (text : List Char) : Prop := ∀ w, w <:+: text → ¬ r.Matches w

theorem Free.mono {text' : List Char} (h : r.Free text) (hmiddle : text' <:+: text) :
    r.Free text' := fun w hw => h w (hw.trans hmiddle)

theorem free_of_all (h : (text.tails.flatMap List.inits).all (fun w =>
    decide (w.length < r.minLength) || w.any fun c => r.avoids c) = true) : r.Free text := by
  intro w hw hmatch
  obtain ⟨tail, hprefix, hsuffix⟩ := infix_iff_prefix_suffix.1 hw
  have hmem : w ∈ text.tails.flatMap List.inits :=
    mem_flatMap.2 ⟨tail, (mem_tails _ _).2 hsuffix, (mem_inits _ _).2 hprefix⟩
  rcases Bool.or_eq_true_iff.1 (List.all_eq_true.1 h w hmem) with hshort | hany
  · exact (minLength_le hmatch).not_gt (of_decide_eq_true hshort)
  · obtain ⟨c, hc, havoid⟩ := List.any_eq_true.1 hany
    exact notMem_of_avoids hmatch havoid hc

theorem infix_of_notMem {a b : List Char} {c : Char} (h : w <:+: a ++ c :: b) (hc : c ∉ w) :
    w <:+: a ∨ w <:+: b := by
  obtain ⟨s, t, heq⟩ := h
  rw [List.append_assoc] at heq
  rcases append_eq_append_iff.1 heq with ⟨a', rfl, ha⟩ | ⟨s', rfl, hs⟩
  · rcases append_eq_append_iff.1 ha with ⟨t', rfl, -⟩ | ⟨w', rfl, hw⟩
    · exact .inl ⟨s, t', List.append_assoc ..⟩
    · cases w' with
      | nil => exact .inl ⟨s, [], by simp⟩
      | cons d w' =>
        obtain ⟨rfl, -⟩ := cons.inj hw
        exact absurd (mem_append_right a' mem_cons_self) hc
  · cases s' with
    | nil =>
      cases w with
      | nil => exact .inl nil_infix
      | cons d w =>
        obtain ⟨rfl, -⟩ := cons.inj hs
        exact absurd mem_cons_self hc
    | cons d s' =>
      obtain ⟨-, rfl⟩ := cons.inj hs
      exact .inr ⟨s', t, List.append_assoc ..⟩

/-! ## Replacement -/

/-- A search for a match at the beginning of a text: the length of the one that is chosen. -/
structure Engine where
  find : Regex → List Char → Option ℕ
  sound : ∀ {r text n}, find r text = some n → r.Matches (text.take n)
  complete : ∀ {r text}, find r text = none → ∀ w, w <+: text → ¬ r.Matches w

open Classical in
noncomputable instance : Inhabited Engine where
  default :=
    { find := fun r text =>
        if h : ∃ n, r.Matches (text.take n) then some h.choose else none
      sound := fun {r text n} h => by
        obtain ⟨hmatch, heq⟩ := Option.dite_none_right_eq_some.1 h
        exact Option.some.inj heq ▸ hmatch.choose_spec
      complete := fun {r text} h w hw hmatch => by
        rw [dite_eq_right_iff] at h
        exact absurd (h ⟨w.length, by rwa [← prefix_iff_eq_take.1 hw]⟩) (by simp) }

variable {engine : Engine}

/-- The matches are replaced from the left, after the characters that the last one takes up. -/
def replaceFrom (engine : Engine) (r : Regex) (marker : List Char) : ℕ → List Char → List Char
  | _, [] => []
  | skip + 1, _ :: text => replaceFrom engine r marker skip text
  | 0, c :: text =>
    match engine.find r (c :: text) with
    | some (n + 1) => marker ++ replaceFrom engine r marker n text
    | _ => c :: replaceFrom engine r marker 0 text

theorem prefix_replaceFrom {middle : List Char} {skip : ℕ}
    (h : w <+: replaceFrom engine r (start :: middle) skip text) (hw : start ∉ w) :
    w <+: text.drop skip := by
  fun_induction replaceFrom engine r (start :: middle) skip text generalizing w with
  | case1 skip => simpa using h
  | case2 skip c text ih => exact ih h hw
  | case3 c text n hfind ih =>
    cases w with
    | nil => exact nil_prefix
    | cons d w =>
      obtain ⟨rfl, -⟩ := cons_prefix_cons.1 h
      exact absurd mem_cons_self hw
  | case4 c text hfind ih =>
    cases w with
    | nil => exact nil_prefix
    | cons d w =>
      obtain ⟨rfl, hprefix⟩ := cons_prefix_cons.1 h
      exact cons_prefix_cons.2 ⟨rfl, ih hprefix fun hmem => hw (mem_cons_of_mem _ hmem)⟩

/-- After a replacement there is no match of its own expression, and none of one that had none
before. -/
theorem free_replaceFrom {middle : List Char} (hstart : r.avoids start) (hstop : r.avoids stop)
    (hmarker : r.Free (start :: middle ++ [stop])) (skip : ℕ) (h : r = r' ∨ r.Free text) :
    r.Free (replaceFrom engine r' (start :: middle ++ [stop]) skip text) := by
  fun_induction replaceFrom engine r' (start :: middle ++ [stop]) skip text with
  | case1 skip => exact hmarker.mono nil_infix
  | case2 skip c text ih => exact ih (h.imp_right (·.mono (suffix_cons c text).isInfix))
  | case3 c text n hfind ih =>
    intro w hw hmatch
    rw [List.append_assoc] at hw
    rcases infix_of_notMem hw (notMem_of_avoids hmatch hstop) with hw | hw
    · exact hmarker w (hw.trans (prefix_append _ _).isInfix) hmatch
    · exact ih (h.imp_right (·.mono (suffix_cons c text).isInfix)) w hw hmatch
  | case4 c text hfind ih =>
    intro w hw hmatch
    rcases infix_cons_iff.1 hw with hw | hw
    · have hprefix : w <+: c :: text := by
        cases w with
        | nil => exact nil_prefix
        | cons d w =>
          obtain ⟨rfl, htail⟩ := cons_prefix_cons.1 hw
          have hnot : start ∉ w := fun hmem =>
            notMem_of_avoids hmatch hstart (mem_cons_of_mem _ hmem)
          exact cons_prefix_cons.2 ⟨rfl, prefix_replaceFrom htail hnot⟩
      rcases h with rfl | h
      · rcases hresult : engine.find r (c :: text) with _ | _ | n
        · exact engine.complete hresult w hprefix hmatch
        · exact hmarker [] nil_infix (engine.sound hresult)
        · exact hfind n hresult
      · exact h w hprefix.isInfix hmatch
    · exact ih (h.imp_right (·.mono (suffix_cons c text).isInfix)) w hw hmatch

theorem replaceFrom_of_free (marker : List Char) (h : r.Free text) :
    replaceFrom engine r marker 0 text = text := by
  induction text with
  | nil => rfl
  | cons c text ih =>
    have htext := ih (h.mono (suffix_cons c text).isInfix)
    unfold replaceFrom
    split
    · rename_i n hfind
      exact absurd (engine.sound hfind) (h _ ( take_prefix _ _).isInfix)
    · rw [htext]

/-! ## Several expressions -/

/-- Each expression is replaced by its marker, one after the other. -/
def replaceAll (engine : Engine) (patterns : List (Regex × List Char)) (text : List Char) :
    List Char :=
  patterns.foldl (fun text pattern => replaceFrom engine pattern.1 pattern.2 0 text) text

/-- The ends of the markers are in no match, and no marker has a match in it. -/
structure Guarded (start stop : Char) (patterns : List (Regex × List Char)) : Prop where
  avoids : ∀ p ∈ patterns, p.1.avoids start ∧ p.1.avoids stop
  marker : ∀ p ∈ patterns, ∃ middle, p.2 = start :: middle ++ [stop]
  free : ∀ p ∈ patterns, ∀ q ∈ patterns, p.1.Free q.2

variable {patterns : List (Regex × List Char)}

theorem Guarded.free_replaceAll (h : Guarded start stop patterns) (text : List Char) :
    ∀ p ∈ patterns, p.1.Free (replaceAll engine patterns text) := by
  have hrun : ∀ done rest, done ++ rest = patterns → ∀ text, (∀ p ∈ done, p.1.Free text) →
      ∀ p ∈ patterns, p.1.Free (replaceAll engine rest text) := by
    intro done rest
    induction rest generalizing done with
    | nil =>
      rintro hall text hfree p hp
      rw [append_nil] at hall
      exact hfree p (hall ▸ hp)
    | cons q rest ih =>
      intro hall text hfree
      have hq : q ∈ patterns := hall ▸ mem_append_right done mem_cons_self
      refine ih (done ++ [q]) (by rw [← hall, List.append_assoc]; rfl) _ fun p hp => ?_
      obtain ⟨middle, hmiddle⟩ := h.marker q hq
      have hmem : p ∈ patterns := hall ▸ by
        rcases mem_append.1 hp with hp | hp
        · exact mem_append_left _ hp
        · exact mem_append_right _ (mem_singleton.1 hp ▸ mem_cons_self)
      have hmarker := h.free p hmem q hq
      change p.1.Free (replaceFrom engine q.1 q.2 0 text)
      rw [hmiddle] at hmarker ⊢
      refine free_replaceFrom (h.avoids p hmem).1 (h.avoids p hmem).2 hmarker 0 ?_
      rcases mem_append.1 hp with hp | hp
      · exact .inr (hfree p hp)
      · exact .inl (congrArg Prod.fst (mem_singleton.1 hp))
  exact hrun [] patterns rfl text nofun

theorem replaceAll_of_free (h : ∀ p ∈ patterns, p.1.Free text) :
    replaceAll engine patterns text = text := by
  unfold replaceAll
  induction patterns with
  | nil => rfl
  | cons p patterns ih =>
    rw [foldl_cons, replaceFrom_of_free p.2 (h p mem_cons_self)]
    exact ih fun q hq => h q (mem_cons_of_mem _ hq)

end Regex

end Lib
