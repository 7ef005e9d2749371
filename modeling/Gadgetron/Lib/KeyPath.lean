import Gadgetron.Lib.Lines
import Mathlib.Data.String.Basic

/-!
# Rendered paths of keys

A path of keys is rendered as a text, each key after a dot. Keys may hold dots themselves, so that
different paths may have one text.
-/

namespace Lib

open List

def renderKeys (root : String) (keys : List String) : String :=
  keys.foldl (fun path key => path ++ "." ++ key) root

/-- The part of a rendered path after its root. -/
def dotted (keys : List String) : List Char := keys.flatMap fun key => '.' :: key.toList

@[simp] theorem renderKeys_nil (root : String) : renderKeys root [] = root := rfl

@[simp] theorem renderKeys_cons (root key : String) (keys : List String) :
    renderKeys root (key :: keys) = renderKeys (root ++ "." ++ key) keys := rfl

@[simp] theorem dotted_nil : dotted [] = [] := rfl

@[simp] theorem dotted_cons (key : String) (keys : List String) :
    dotted (key :: keys) = '.' :: (key.toList ++ dotted keys) := by
  rw [dotted, flatMap_cons, cons_append, dotted]

theorem toList_renderKeys (root : String) (keys : List String) :
    (renderKeys root keys).toList = root.toList ++ dotted keys := by
  induction keys generalizing root with
  | nil => simp
  | cons key keys ih =>
    have hdot : ".".toList = ['.'] := rfl
    rw [renderKeys_cons, ih, dotted_cons, String.toList_append, String.toList_append, hdot,
      List.append_assoc, List.append_assoc]
    rfl

theorem renderKeys_inj_right {root : String} {keys keys' : List String} :
    renderKeys root keys = renderKeys root keys' ↔ dotted keys = dotted keys' := by
  rw [← String.toList_inj, toList_renderKeys, toList_renderKeys, append_cancel_left_eq]

variable {keys : List String}

theorem prefix_dotted_iff {name : List Char} (hname : '.' ∉ name) :
    '.' :: name <+: dotted keys ↔ ∃ key ∈ keys.head?, name <+: key.toList := by
  cases keys with
  | nil => simp
  | cons key keys =>
    rw [dotted_cons, cons_prefix_cons]
    simp only [true_and, head?_cons, Option.mem_some_iff, exists_eq_left']
    refine ⟨fun h => ?_, fun h => h.trans (prefix_append _ _)⟩
    rcases Nat.le_total name.length key.toList.length with hlen | hlen
    · exact prefix_of_prefix_length_le h (prefix_append _ _) hlen
    · obtain ⟨rest, hrest⟩ := prefix_of_prefix_length_le (prefix_append _ _) h hlen
      cases rest with
      | nil => exact ⟨[], by rw [← hrest, append_nil, append_nil]⟩
      | cons c rest =>
        -- What follows the key starts with a dot, and the name has none.
        rw [← hrest, prefix_append_right_inj] at h
        cases keys with
        | nil => exact absurd (prefix_nil.1 h) (by simp)
        | cons next keys =>
          rw [dotted_cons, cons_prefix_cons] at h
          exact absurd (hrest ▸ mem_append_right _ (h.1 ▸ mem_cons_self)) hname

theorem dotted_eq_pair_iff {first second : String} (hfirst : '.' ∉ first.toList)
    (hsecond : '.' ∉ second.toList) : dotted keys = dotted [first, second] ↔
      keys = [first, second] ∨ keys = [first ++ "." ++ second] := by
  have hdot : ".".toList = ['.'] := rfl
  have hjoined : (first ++ "." ++ second).toList = first.toList ++ '.' :: second.toList := by
    rw [String.toList_append, String.toList_append, hdot, List.append_assoc]
    rfl
  constructor
  · intro h
    cases keys with
    | nil => simp at h
    | cons key keys =>
      simp only [dotted_cons, dotted_nil, append_nil, cons.injEq, true_and] at h
      cases keys with
      | nil =>
        refine .inr (congrArg (fun key => [key]) (String.toList_inj.1 ?_))
        rw [hjoined, ← h, dotted_nil, append_nil]
      | cons next keys =>
        rw [dotted_cons] at h
        by_cases hkey : '.' ∈ key.toList
        · -- The first key would hold the only dot between the names.
          obtain ⟨before, after, hsplit, hbefore⟩ := eq_append_cons_of_mem hkey
          rw [hsplit, List.append_assoc, cons_append] at h
          obtain ⟨-, hafter⟩ := append_separator_inj hbefore hfirst h
          exact absurd (hafter ▸ mem_append_right _ mem_cons_self) hsecond
        · obtain ⟨heq, hrest⟩ := append_separator_inj hkey hfirst h
          cases keys with
          | nil =>
            rw [dotted_nil, append_nil] at hrest
            exact .inl (by rw [String.toList_inj.1 heq, String.toList_inj.1 hrest])
          | cons third keys =>
            rw [dotted_cons] at hrest
            exact absurd (hrest ▸ mem_append_right _ mem_cons_self) hsecond
  · rintro (rfl | rfl)
    · rfl
    · simp [hjoined]

end Lib
