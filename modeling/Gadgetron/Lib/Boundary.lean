import Gadgetron.Lib.Utf8

/-!
# Places in a text

A `str` is indexed by bytes, and a slice of it panics where it would cut a character: its boundaries
are the places between two characters.
-/

namespace Lib

open List

/-- `&bytes[start..stop]`; `none` where it panics. -/
def sliceBytes (bytes : List UInt8) (start stop : ℕ) : Option (List UInt8) :=
  if start ≤ stop ∧ stop ≤ bytes.length then some ((bytes.drop start).take (stop - start)) else none

def fromUtf8 (bytes : List UInt8) : Option (List Char) :=
  if encodeText (fromUtf8Lossy bytes) = bytes then some (fromUtf8Lossy bytes) else none

theorem fromUtf8_encodeText (text : List Char) : fromUtf8 (encodeText text) = some text := by
  unfold fromUtf8
  rw [fromUtf8Lossy_encodeText, if_pos rfl]

/-- `char::len_utf8`. -/
def charBytes (c : Char) : ℕ := (String.utf8EncodeChar c).length

/-- `str::len`. -/
def byteLength (text : List Char) : ℕ := (encodeText text).length

@[simp] theorem byteLength_cons (c : Char) (text : List Char) :
    byteLength (c :: text) = charBytes c + byteLength text := by
  rw [byteLength, encodeText_cons, List.length_append]
  rfl

@[simp] theorem byteLength_append (text text' : List Char) :
    byteLength (text ++ text') = byteLength text + byteLength text' := by
  rw [byteLength, encodeText_append, List.length_append]
  rfl

theorem charBytes_pos (c : Char) : 0 < charBytes c := by
  unfold charBytes
  obtain ⟨b, hencode, -⟩ | ⟨-, b, s, bytes, hencode, -⟩ := encodeChar_cases c
  · rw [hencode]
    exact Nat.zero_lt_one
  · rw [hencode]
    exact Nat.zero_lt_succ _

/-! ## Slices -/

/-- `str::split_at_checked`. -/
def splitAtByte : List Char → ℕ → Option (List Char × List Char)
  | [], n => if n = 0 then some ([], []) else none
  | c :: text, n =>
    if n = 0 then some ([], c :: text)
    else if charBytes c ≤ n then
      (splitAtByte text (n - charBytes c)).map fun parts => (c :: parts.1, parts.2)
    else none

theorem splitAtByte_append (left right : List Char) :
    splitAtByte (left ++ right) (byteLength left) = some (left, right) := by
  induction left with
  | nil => cases right <;> rfl
  | cons c left ih =>
    have hpos := charBytes_pos c
    rw [cons_append, splitAtByte, byteLength_cons, if_neg (by omega), if_pos (by omega),
      Nat.add_sub_cancel_left, ih]
    rfl

/-- `&s[..n]`; `none` where it panics. -/
def sliceTo (s : List Char) (n : ℕ) : Option (List Char) := (splitAtByte s n).map Prod.fst

def sliceFrom (s : List Char) (n : ℕ) : Option (List Char) := (splitAtByte s n).map Prod.snd

def slice (s : List Char) (start stop : ℕ) : Option (List Char) :=
  (sliceTo s stop).bind fun before => sliceFrom before start

theorem sliceTo_append (left right : List Char) :
    sliceTo (left ++ right) (byteLength left) = some left := by
  rw [sliceTo, splitAtByte_append]
  rfl

theorem sliceFrom_append (left right : List Char) :
    sliceFrom (left ++ right) (byteLength left) = some right := by
  rw [sliceFrom, splitAtByte_append]
  rfl

theorem slice_append (left part right : List Char) :
    slice (left ++ (part ++ right)) (byteLength left) (byteLength left + byteLength part) =
      some part := by
  rw [slice, ← byteLength_append, ← List.append_assoc, sliceTo_append]
  exact sliceFrom_append left part

/-- `str::char_indices`, from `n` on. -/
def charIndices : ℕ → List Char → List (ℕ × Char)
  | _, [] => []
  | n, c :: text => (n, c) :: charIndices (n + charBytes c) text

/-! ## Boundaries -/

/-- A character of the text starts at byte `n`, or the text ends there. -/
def IsCharBoundary (text : List Char) (n : ℕ) : Prop :=
  ∃ left right, text = left ++ right ∧ byteLength left = n

variable {b : UInt8}

theorem not_ascii_of_step {s : Utf8State} (h : Utf8State.start.step b = (s, [])) :
    0x80 ≤ b.toNat := by
  by_contra hb
  rw [Utf8State.step, Utf8State.first, if_pos (by omega)] at h
  cases h

variable {text : List Char}

theorem ascii_getElem? {i : ℕ} (h : (encodeText text)[i]? = some b) (hb : b.toNat < 0x80) :
    ∃ left c right, text = left ++ c :: right ∧ byteLength left = i ∧
      String.utf8EncodeChar c = [b] := by
  induction text generalizing i with
  | nil => cases h
  | cons c text ih =>
    rw [encodeText_cons, getElem?_append] at h
    by_cases hi : i < (String.utf8EncodeChar c).length
    · rw [if_pos hi] at h
      obtain ⟨b', hencode, -⟩ | ⟨-, b', s, bytes, hencode, hstep, htakes⟩ := encodeChar_cases c
      · rw [hencode, List.length_singleton] at hi
        obtain rfl : i = 0 := by omega
        rw [hencode] at h
        exact ⟨[], c, text, rfl, rfl, Option.some.inj h ▸ hencode⟩
      · rw [hencode] at h
        cases i with
        | zero =>
          have hfirst := not_ascii_of_step hstep
          rw [Option.some.inj h] at hfirst
          omega
        | succ i =>
          have hrest := (htakes.isContinuation b (mem_of_getElem? h)).1
          omega
    · rw [if_neg hi] at h
      obtain ⟨left, c', right, rfl, hlength, hencode⟩ := ih h
      refine ⟨c :: left, c', right, rfl, ?_, hencode⟩
      rw [byteLength_cons, hlength]
      unfold charBytes
      omega

theorem isCharBoundary_of_ascii {i : ℕ} (h : (encodeText text)[i]? = some b) (hb : b.toNat < 0x80) :
    IsCharBoundary text i ∧ IsCharBoundary text (i + 1) := by
  obtain ⟨left, c, right, rfl, rfl, hencode⟩ := ascii_getElem? h hb
  refine ⟨⟨left, c :: right, rfl, rfl⟩, left ++ [c], right, (append_cons ..), ?_⟩
  rw [byteLength_append, byteLength_cons, charBytes, hencode]
  rfl

theorem utf8EncodeChar_injective {c c' : Char}
    (h : String.utf8EncodeChar c = String.utf8EncodeChar c') : c = c' := by
  have hc := decodeFrom_encodeChar c []
  rw [h, decodeFrom_encodeChar c' []] at hc
  exact (cons.inj hc).1.symm

theorem mem_of_mem_encodeText {c : Char}
    (hc : String.utf8EncodeChar c = [b]) (hb : b.toNat < 0x80) (h : b ∈ encodeText text) :
    c ∈ text := by
  obtain ⟨i, hi⟩ := getElem?_of_mem h
  obtain ⟨left, c', right, rfl, -, hencode⟩ := ascii_getElem? hi hb
  rw [utf8EncodeChar_injective (hc.trans hencode.symm)]
  exact mem_append_right _ mem_cons_self

end Lib
