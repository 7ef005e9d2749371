import Mathlib.Data.String.Basic
import Mathlib.Data.List.Infix

/-!
# Text functions

The character classes and string functions of the standard library that need no large table, texts
and their bytes, and numbers at the end of a text.
-/

namespace Lib

open List

def isWhitespace (c : Char) : Bool :=
  let n := c.toNat
  (9 ≤ n && n ≤ 13) || n == 0x20 || n == 0x85 || n == 0xa0 || n == 0x1680 ||
    (0x2000 ≤ n && n ≤ 0x200a) || n == 0x2028 || n == 0x2029 || n == 0x202f || n == 0x205f ||
    n == 0x3000

def isControl (c : Char) : Bool :=
  let n := c.toNat
  n ≤ 0x1f || (0x7f ≤ n && n ≤ 0x9f)

def trim (text : String) : String :=
  String.ofList ((text.toList.dropWhile isWhitespace).reverse.dropWhile isWhitespace).reverse

theorem forall_mem_of_all {α : Type*} {p : α → Prop} [DecidablePred p] {l : List α}
    (h : (l.all fun a => decide (p a)) = true) : ∀ a ∈ l, p a := by
  simpa using h

theorem forall_mem_of_optionAll {α : Type*} {p : α → Prop} [DecidablePred p] {o : Option α}
    (h : (o.all fun a => decide (p a)) = true) : ∀ a ∈ o, p a := by
  cases o with
  | none => nofun
  | some a =>
    rintro b ⟨⟩
    exact of_decide_eq_true h

theorem trim_eq_self {text : String} (h : ∀ c ∈ text.toList, isWhitespace c = false) :
    trim text = text := by
  have hdrop : ∀ l : List Char, (∀ c ∈ l, isWhitespace c = false) →
      l.dropWhile isWhitespace = l := by
    intro l hl
    rcases l with _ | ⟨c, l⟩
    · rfl
    · rw [dropWhile_cons_of_neg (by simp [hl c mem_cons_self])]
  unfold trim
  rw [hdrop _ h, hdrop _ fun c hc => h c (mem_reverse.1 hc), reverse_reverse, String.ofList_toList]

theorem trim_ofList {text : List Char} (hfirst : ∀ c ∈ text.head?, isWhitespace c = false)
    (hlast : ∀ c ∈ text.getLast?, isWhitespace c = false) :
    trim (String.ofList text) = String.ofList text := by
  have hdrop : ∀ l : List Char, (∀ c ∈ l.head?, isWhitespace c = false) →
      l.dropWhile isWhitespace = l := by
    intro l hl
    rcases l with _ | ⟨c, l⟩
    · rfl
    · rw [dropWhile_cons_of_neg (by simp [hl c rfl])]
  unfold trim
  rw [String.toList_ofList, hdrop _ hfirst,
    hdrop _ (by rw [head?_reverse]; exact hlast), reverse_reverse]

/-- `str::split_once` at a character: what is before its first occurrence and what is after. -/
def splitOnce (c : Char) (text : List Char) : Option (List Char × List Char) :=
  match text.dropWhile (· ≠ c) with
  | [] => none
  | _ :: rest => some (text.takeWhile (· ≠ c), rest)

/-- `str::rsplit_once` at a character: what is before its last occurrence and what is after. -/
def rsplitOnce (c : Char) (text : List Char) : Option (List Char × List Char) :=
  match text.reverse.span (· ≠ c) with
  | (_, []) => none
  | (after, _ :: before) => some (before.reverse, after.reverse)

theorem rsplitOnce_append {c : Char} {after : List Char} (h : c ∉ after) (before : List Char) :
    rsplitOnce c (before ++ c :: after) = some (before, after) := by
  have htake : ∀ d ∈ after.reverse, decide (d ≠ c) = true := fun d hd =>
    decide_eq_true fun heq => h (heq ▸ mem_reverse.1 hd)
  unfold rsplitOnce
  rw [reverse_append, reverse_cons, List.append_assoc, span_eq_takeWhile_dropWhile,
    takeWhile_append_of_pos htake, dropWhile_append_of_pos htake]
  simp

theorem utf8Len_replicate (count : ℕ) (c : Char) :
    String.utf8Len (List.replicate count c) = count * c.utf8Size := by
  induction count with
  | zero => simp
  | succ count ih =>
    rw [replicate_succ, String.utf8Len_cons, ih]
    lia

theorem eq_toUTF8 {bytes : ByteArray} {text : String} (h : String.fromUTF8? bytes = some text) :
    bytes = text.toUTF8 := by
  unfold String.fromUTF8? at h
  split_ifs at h with hvalid
  exact Option.some.inj h ▸ rfl

theorem append_toString_injective (stem : String) {m n : ℕ}
    (h : stem ++ toString m = stem ++ toString n) : m = n := by
  have hlist := congrArg String.toList h
  rw [String.toList_append, String.toList_append] at hlist
  have hdigits : Nat.toDigits 10 m = Nat.toDigits 10 n := by
    rw [← Nat.toList_repr, ← Nat.toList_repr]
    exact append_cancel_left hlist
  rw [← @Nat.ofDigitChars_ten_toDigits m, hdigits, Nat.ofDigitChars_ten_toDigits]

end Lib
