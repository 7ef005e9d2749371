import Mathlib.Data.List.Basic
import Mathlib.Data.List.Induction
import Mathlib.Data.Nat.Notation
import Mathlib.Tactic.SplitIfs

/-!
# UTF-8 in pieces

`String::from_utf8_lossy` as a machine over bytes. When pieces are decoded one by one, a character
whose bytes lie in several turns into replacement characters, and all others stay.
-/

namespace Lib

open List

inductive Utf8State
  | start
  | more (value low high left : ℕ)

def replacement : Char := '\uFFFD'

def Utf8State.first (b : ℕ) : Utf8State × List Char :=
  if b < 0x80 then (.start, [Char.ofNat b])
  else if b < 0xc2 then (.start, [replacement])
  else if b < 0xe0 then (.more (b - 0xc0) 0x80 0xbf 0, [])
  else if b < 0xf0 then
    (.more (b - 0xe0) (if b = 0xe0 then 0xa0 else 0x80) (if b = 0xed then 0x9f else 0xbf) 1, [])
  else if b < 0xf5 then
    (.more (b - 0xf0) (if b = 0xf0 then 0x90 else 0x80) (if b = 0xf4 then 0x8f else 0xbf) 2, [])
  else (.start, [replacement])

/-- The next byte; one that does not go on with the character ends it and is a first one. -/
def Utf8State.step : Utf8State → UInt8 → Utf8State × List Char
  | .start, b => first b.toNat
  | .more value low high left, b =>
    if low ≤ b.toNat ∧ b.toNat ≤ high then
      let value := value * 64 + (b.toNat - 0x80)
      if left = 0 then (.start, [Char.ofNat value]) else (.more value 0x80 0xbf (left - 1), [])
    else ((first b.toNat).1, replacement :: (first b.toNat).2)

def decodeFrom : Utf8State → List UInt8 → List Char
  | .start, [] => []
  | .more .., [] => [replacement]
  | s, b :: bytes => (s.step b).2 ++ decodeFrom (s.step b).1 bytes

def fromUtf8Lossy (bytes : List UInt8) : List Char := decodeFrom .start bytes

def encodeText (text : List Char) : List UInt8 := text.flatMap String.utf8EncodeChar

theorem encodeText_cons (c : Char) (text : List Char) :
    encodeText (c :: text) = String.utf8EncodeChar c ++ encodeText text := flatMap_cons

theorem encodeText_append (text text' : List Char) :
    encodeText (text ++ text') = encodeText text ++ encodeText text' := flatMap_append

/-! ## One character -/

def IsContinuation (b : UInt8) : Prop := 0x80 ≤ b.toNat ∧ b.toNat < 0xc0

/-- The machine is inside of `c` and takes the bytes as the rest of it. -/
inductive Takes (c : Char) : Utf8State → List UInt8 → Prop
  | last {value low high left : ℕ} {b : UInt8} : IsContinuation b →
      (Utf8State.more value low high left).step b = (.start, [c]) →
      Takes c (.more value low high left) [b]
  | cons {value low high left : ℕ} {s : Utf8State} {b : UInt8} {bytes : List UInt8} :
      IsContinuation b → (Utf8State.more value low high left).step b = (s, []) →
      Takes c s bytes → Takes c (.more value low high left) (b :: bytes)

theorem toNat_ofNat {n : ℕ} (h : n < 256) : (UInt8.ofNat n).toNat = n := by
  rw [UInt8.toNat_ofNat']
  exact Nat.mod_eq_of_lt h

theorem step_more {value low high left n : ℕ} (hn : n < 256) (hlow : low ≤ n) (hhigh : n ≤ high) :
    (Utf8State.more value low high left).step (UInt8.ofNat n) =
      if left = 0 then (.start, [Char.ofNat (value * 64 + (n - 0x80))])
      else (.more (value * 64 + (n - 0x80)) 0x80 0xbf (left - 1), []) := by
  rw [Utf8State.step, toNat_ofNat hn, if_pos ⟨hlow, hhigh⟩]

theorem isContinuation_ofNat (n : ℕ) : IsContinuation (UInt8.ofNat (n % 64 + 0x80)) := by
  unfold IsContinuation
  rw [toNat_ofNat (by omega)]
  omega

variable {c : Char}

theorem takes_last {value low high n : ℕ} (hlow : low ≤ n % 64 + 0x80)
    (hhigh : n % 64 + 0x80 ≤ high) (hvalue : value * 64 + n % 64 = c.toNat) :
    Takes c (.more value low high 0) [UInt8.ofNat (n % 64 + 0x80)] := by
  refine .last (isContinuation_ofNat n) ?_
  rw [step_more (by omega) hlow hhigh, if_pos rfl, Nat.add_sub_cancel, hvalue, Char.ofNat_toNat]

theorem takes_cons {value low high left n : ℕ} {bytes : List UInt8}
    (hlow : low ≤ n % 64 + 0x80) (hhigh : n % 64 + 0x80 ≤ high)
    (hrest : Takes c (.more (value * 64 + n % 64) 0x80 0xbf left) bytes) :
    Takes c (.more value low high (left + 1)) (UInt8.ofNat (n % 64 + 0x80) :: bytes) := by
  refine .cons (isContinuation_ofNat n) ?_ hrest
  rw [step_more (by omega) hlow hhigh, if_neg (Nat.succ_ne_zero left), Nat.add_sub_cancel,
    Nat.add_sub_cancel]

theorem encodeChar_cases (c : Char) :
    (∃ b, String.utf8EncodeChar c = [b] ∧ Utf8State.start.step b = (.start, [c])) ∨
      0x80 ≤ c.toNat ∧ ∃ b s bytes, String.utf8EncodeChar c = b :: bytes ∧
        Utf8State.start.step b = (s, []) ∧ Takes c s bytes := by
  have hvalid : c.val.toNat < 0xd800 ∨ 0xdfff < c.val.toNat ∧ c.val.toNat < 0x110000 := c.valid
  have hval : c.toNat = c.val.toNat := rfl
  unfold String.utf8EncodeChar
  change (∃ b, (if c.val.toNat ≤ 0x7f then _ else _) = [b] ∧ _) ∨
    _ ∧ ∃ b s bytes, (if c.val.toNat ≤ 0x7f then _ else _) = b :: bytes ∧ _
  by_cases h1 : c.val.toNat ≤ 0x7f
  · simp only [if_pos h1]
    refine .inl ⟨_, rfl, ?_⟩
    rw [Utf8State.step, Utf8State.first, toNat_ofNat (by omega), if_pos (by omega),
      ← hval, Char.ofNat_toNat]
  refine .inr ⟨by omega, ?_⟩
  simp only [if_neg h1]
  by_cases h2 : c.val.toNat ≤ 0x7ff
  · simp only [if_pos h2]
    refine ⟨_, _, _, rfl, ?_, @takes_last c (c.val.toNat / 64) 0x80 0xbf _
      (by omega) (by omega) (by omega)⟩
    rw [Utf8State.step, Utf8State.first, toNat_ofNat (by omega), if_neg (by omega),
      if_neg (by omega), if_pos (by omega)]
    simp only [Prod.mk.injEq, Utf8State.more.injEq, and_true]
    omega
  by_cases h3 : c.val.toNat ≤ 0xffff
  · simp only [if_neg h2, if_pos h3]
    refine ⟨_, _, _, rfl, ?_, @takes_cons c (c.val.toNat / 4096)
      (if c.val.toNat / 4096 = 0 then 0xa0 else 0x80)
      (if c.val.toNat / 4096 = 13 then 0x9f else 0xbf) 0 _ _
      (by split_ifs <;> omega) (by split_ifs <;> omega)
      (takes_last (by omega) (by omega) (by omega))⟩
    rw [Utf8State.step, Utf8State.first, toNat_ofNat (by omega), if_neg (by omega),
      if_neg (by omega), if_neg (by omega), if_pos (by omega)]
    simp only [Prod.mk.injEq, Utf8State.more.injEq, and_true]
    refine ⟨by omega, ?_, ?_⟩
    · split_ifs <;> omega
    · split_ifs <;> omega
  · simp only [if_neg h2, if_neg h3]
    refine ⟨_, _, _, rfl, ?_, @takes_cons c (c.val.toNat / 262144)
      (if c.val.toNat / 262144 = 0 then 0x90 else 0x80)
      (if c.val.toNat / 262144 = 4 then 0x8f else 0xbf) 1 _ _
      (by split_ifs <;> omega) (by split_ifs <;> omega)
      (takes_cons (by omega) (by omega) (takes_last (by omega) (by omega) (by omega)))⟩
    rw [Utf8State.step, Utf8State.first, toNat_ofNat (by omega), if_neg (by omega),
      if_neg (by omega), if_neg (by omega), if_neg (by omega), if_pos (by omega)]
    simp only [Prod.mk.injEq, Utf8State.more.injEq, and_true]
    refine ⟨by omega, ?_, ?_⟩
    · split_ifs <;> omega
    · split_ifs <;> omega

variable {s : Utf8State}

theorem decodeFrom_takes {bytes : List UInt8} (h : Takes c s bytes)
    (rest : List UInt8) : decodeFrom s (bytes ++ rest) = c :: decodeFrom .start rest := by
  induction h with
  | last _ hstep => rw [singleton_append, decodeFrom, hstep]; rfl
  | cons _ hstep _ ih => rw [cons_append, decodeFrom, hstep, nil_append, ih]

theorem decodeFrom_encodeChar (c : Char) (rest : List UInt8) :
    decodeFrom .start (String.utf8EncodeChar c ++ rest) = c :: decodeFrom .start rest := by
  obtain ⟨b, hencode, hstep⟩ | ⟨-, b, s, bytes, hencode, hstep, htakes⟩ := encodeChar_cases c
  · rw [hencode, singleton_append, decodeFrom, hstep]; rfl
  · rw [hencode, cons_append, decodeFrom, hstep, nil_append, decodeFrom_takes htakes]

theorem fromUtf8Lossy_append (text : List Char) (bytes : List UInt8) :
    fromUtf8Lossy (encodeText text ++ bytes) = text ++ fromUtf8Lossy bytes := by
  induction text with
  | nil => rfl
  | cons c text ih =>
    rw [encodeText_cons, List.append_assoc, fromUtf8Lossy, decodeFrom_encodeChar]
    exact congrArg (c :: ·) ih

theorem fromUtf8Lossy_encodeText (text : List Char) : fromUtf8Lossy (encodeText text) = text := by
  have h := fromUtf8Lossy_append text []
  rw [append_nil] at h
  exact h.trans (append_nil text)

theorem step_continuation {b : UInt8} (h : IsContinuation b) :
    Utf8State.start.step b = (.start, [replacement]) := by
  obtain ⟨hlow, hhigh⟩ := h
  rw [Utf8State.step, Utf8State.first, if_neg (by omega), if_pos (by omega)]

theorem Takes.isContinuation {bytes : List UInt8}
    (h : Takes c s bytes) : ∀ b ∈ bytes, IsContinuation b := by
  induction h with
  | last hb _ => exact forall_mem_singleton.2 hb
  | cons hb _ _ ih => exact forall_mem_cons.2 ⟨hb, ih⟩

/-! ## Texts in pieces -/

def readPieces (pieces : List (List UInt8)) : List Char := pieces.flatMap fromUtf8Lossy

inductive Garbled : List Char → List Char → Prop
  | nil : Garbled [] []
  | keep (c : Char) {text read : List Char} : Garbled text read → Garbled (c :: text) (c :: read)
  | cut {c : Char} {n : ℕ} {text read : List Char} : 0x80 ≤ c.toNat → 2 ≤ n →
      Garbled text read → Garbled (c :: text) (List.replicate n replacement ++ read)

theorem readPieces_cons (b : UInt8) (bytes : List UInt8) (pieces : List (List UInt8))
    {out : List Char} (h : Utf8State.start.step b = (.start, out)) :
    readPieces ((b :: bytes) :: pieces) = out ++ readPieces (bytes :: pieces) := by
  simp only [readPieces, flatMap_cons, fromUtf8Lossy, decodeFrom, h, List.append_assoc]

variable {rest : List UInt8}

theorem readPieces_continuation {cut : List UInt8} (hcut : ∀ b ∈ cut, IsContinuation b)
    (pieces : List (List UInt8)) (h : pieces.flatten = cut ++ rest) :
    ∃ after : List (List UInt8), after.flatten = rest ∧
      readPieces pieces = List.replicate cut.length replacement ++ readPieces after := by
  induction pieces generalizing cut with
  | nil =>
    obtain ⟨rfl, rfl⟩ := append_eq_nil_iff.1 h.symm
    exact ⟨[], rfl, rfl⟩
  | cons bytes pieces ih =>
    induction bytes generalizing cut with
    | nil => exact ih hcut h
    | cons b bytes ihb =>
      cases cut with
      | nil => exact ⟨(b :: bytes) :: pieces, h, rfl⟩
      | cons b' cut =>
        obtain ⟨rfl, hrest⟩ := cons.inj h
        obtain ⟨hb, hcut⟩ := forall_mem_cons.1 hcut
        obtain ⟨after, hafter, hread⟩ := ihb hcut hrest
        refine ⟨after, hafter, ?_⟩
        rw [readPieces_cons b bytes pieces (step_continuation hb), hread]
        rfl

theorem pieces_takes {cut : List UInt8} (htakes : Takes c s cut)
    (bytes : List UInt8) (pieces : List (List UInt8))
    (h : bytes ++ pieces.flatten = cut ++ rest) :
    (∃ bytes', bytes = cut ++ bytes' ∧ bytes' ++ pieces.flatten = rest) ∨
      ∃ n after, 2 ≤ n ∧ after.flatten = rest ∧ decodeFrom s bytes ++ readPieces pieces =
          List.replicate n replacement ++ readPieces after := by
  induction htakes generalizing bytes with
  | @last value low high left b hb hstep =>
    cases bytes with
    | nil =>
      obtain ⟨after, hafter, hread⟩ := readPieces_continuation (forall_mem_singleton.2 hb) pieces h
      exact .inr ⟨2, after, Nat.le_refl _, hafter, congrArg (replacement :: ·) hread⟩
    | cons b' bytes =>
      obtain ⟨rfl, hrest⟩ := cons.inj h
      exact .inl ⟨bytes, rfl, hrest⟩
  | @cons value low high left s b cut hb hstep htakes ih =>
    cases bytes with
    | nil =>
      obtain ⟨after, hafter, hread⟩ := readPieces_continuation
        (forall_mem_cons.2 ⟨hb, htakes.isContinuation⟩) pieces h
      refine .inr ⟨cut.length + 2, after, by omega, hafter, ?_⟩
      exact congrArg (replacement :: ·) hread
    | cons b' bytes =>
      obtain ⟨rfl, hrest⟩ := cons.inj h
      rw [decodeFrom, hstep, nil_append]
      obtain ⟨bytes', rfl, hafter⟩ | hcut := ih bytes hrest
      · exact .inl ⟨bytes', rfl, hafter⟩
      · exact .inr hcut

theorem pieces_first (pieces : List (List UInt8))
    (h : pieces.flatten = String.utf8EncodeChar c ++ rest) :
    (∃ n bytes after, pieces = List.replicate n [] ++ (String.utf8EncodeChar c ++ bytes) :: after ∧
      bytes ++ after.flatten = rest) ∨ 0x80 ≤ c.toNat ∧ ∃ n after, 2 ≤ n ∧ after.flatten = rest ∧
        readPieces pieces = List.replicate n replacement ++ readPieces after := by
  induction pieces with
  | nil =>
    obtain ⟨b, hencode, -⟩ | ⟨-, b, s, bytes, hencode, -⟩ := encodeChar_cases c
    · simp [hencode] at h
    · simp [hencode] at h
  | cons bytes pieces ih =>
    cases bytes with
    | nil =>
      obtain ⟨n, bytes, after, rfl, hrest⟩ | hcut := ih h
      · exact .inl ⟨n + 1, bytes, after, rfl, hrest⟩
      · exact .inr hcut
    | cons b bytes =>
      obtain ⟨b', hencode, -⟩ | ⟨hc, b', s, cut, hencode, hstep, htakes⟩ := encodeChar_cases c
      · rw [hencode] at h
        obtain ⟨rfl, hrest⟩ := cons.inj h
        exact .inl ⟨0, bytes, pieces, by rw [hencode]; rfl, hrest⟩
      · rw [hencode] at h
        obtain ⟨rfl, hrest⟩ := cons.inj h
        obtain ⟨bytes', rfl, hafter⟩ | ⟨n, after, hn, hafter, hread⟩ :=
          pieces_takes htakes bytes pieces hrest
        · exact .inl ⟨0, bytes', pieces, by rw [hencode]; rfl, hafter⟩
        · refine .inr ⟨hc, n, after, hn, hafter, ?_⟩
          rw [← hread]
          simp only [readPieces, flatMap_cons, fromUtf8Lossy, decodeFrom, hstep, nil_append]

variable {text read : List Char}

theorem Garbled.length_le (h : Garbled text read) : text.length ≤ read.length := by
  induction h with
  | nil => exact Nat.le_refl _
  | keep c _ ih => exact Nat.succ_le_succ ih
  | cut _ hn _ ih =>
    rw [length_cons, List.length_append, List.length_replicate]
    omega

theorem readPieces_replicate_nil (n : ℕ) (pieces : List (List UInt8)) :
    readPieces (List.replicate n [] ++ pieces) = readPieces pieces := by
  induction n with
  | zero => rfl
  | succ n ih => exact ih

section

variable (text : List Char) (pieces : List (List UInt8)) (h : pieces.flatten = encodeText text)
include h

theorem garbled_readPieces : Garbled text (readPieces pieces) ∧
      (readPieces pieces = text → ∀ piece ∈ pieces, ∃ part, piece = encodeText part) := by
  induction text generalizing pieces with
  | nil =>
    have hnil : ∀ piece ∈ pieces, piece = [] := flatten_eq_nil_iff.1 h
    have hread : readPieces pieces = [] :=
      flatMap_eq_nil_iff.2 fun piece hpiece => by rw [hnil piece hpiece]; rfl
    exact ⟨hread ▸ .nil, fun _ piece hpiece => ⟨[], hnil piece hpiece⟩⟩
  | cons c text ih =>
    rw [encodeText_cons] at h
    obtain ⟨n, bytes, after, rfl, hrest⟩ | ⟨hc, n, after, hn, hrest, hread⟩ := pieces_first pieces h
    · obtain ⟨hgarbled, hwhole⟩ := ih (bytes :: after) hrest
      have hread : readPieces (List.replicate n [] ++
          (String.utf8EncodeChar c ++ bytes) :: after) = c :: readPieces (bytes :: after) := by
        rw [readPieces_replicate_nil]
        simp only [readPieces, flatMap_cons, fromUtf8Lossy, decodeFrom_encodeChar, cons_append]
      refine ⟨hread ▸ .keep c hgarbled, fun heq piece hpiece => ?_⟩
      rw [hread] at heq
      have hparts := hwhole (cons.inj heq).2
      obtain hpiece | hpiece := mem_append.1 hpiece
      · exact ⟨[], (mem_replicate.1 hpiece).2⟩
      obtain rfl | hpiece := mem_cons.1 hpiece
      · obtain ⟨part, rfl⟩ := hparts bytes mem_cons_self
        exact ⟨c :: part, (encodeText_cons c part).symm⟩
      · exact hparts piece (mem_cons_of_mem _ hpiece)
    · obtain ⟨hgarbled, -⟩ := ih after hrest
      refine ⟨hread ▸ .cut hc hn hgarbled, fun heq => ?_⟩
      have hlength : (readPieces pieces).length = (c :: text).length := congrArg _ heq
      rw [hread, List.length_append, List.length_replicate, length_cons] at hlength
      have := hgarbled.length_le
      omega

theorem readPieces_of_texts (hpieces : ∀ piece ∈ pieces, ∃ part, piece = encodeText part) :
    readPieces pieces = text := by
  have hread : readPieces pieces = fromUtf8Lossy pieces.flatten := by
    clear h
    induction pieces with
    | nil => rfl
    | cons piece pieces ih =>
      obtain ⟨⟨part, rfl⟩, hparts⟩ := forall_mem_cons.1 hpieces
      rw [flatten_cons, fromUtf8Lossy_append, ← ih hparts]
      simp only [readPieces, flatMap_cons, fromUtf8Lossy_encodeText]
  rw [hread, h, fromUtf8Lossy_encodeText]

end

/-! ## Garbled texts -/

variable {text text' read : List Char}

theorem Garbled.of_append (h : Garbled (text ++ text') read) :
    ∃ read₁ read₂, read = read₁ ++ read₂ ∧ Garbled text read₁ ∧ Garbled text' read₂ := by
  induction text generalizing read with
  | nil => exact ⟨[], read, rfl, .nil, h⟩
  | cons c text ih =>
    cases h with
    | keep _ h =>
      obtain ⟨read₁, read₂, rfl, h₁, h₂⟩ := ih h
      exact ⟨c :: read₁, read₂, rfl, .keep c h₁, h₂⟩
    | cut hc hn h =>
      obtain ⟨read₁, read₂, rfl, h₁, h₂⟩ := ih h
      exact ⟨_, read₂, (List.append_assoc ..).symm, .cut hc hn h₁, h₂⟩

theorem Garbled.eq_of_notMem (h : Garbled text read)
    (hread : replacement ∉ read) : read = text := by
  induction h with
  | nil => rfl
  | keep c _ ih => rw [ih fun hmem => hread (mem_cons_of_mem c hmem)]
  | @cut _ n _ _ _ hn _ _ =>
    exact absurd (mem_append_left _ (mem_replicate.2 ⟨by omega, rfl⟩)) hread

theorem Garbled.eq_of_ascii (h : Garbled text read)
    (htext : ∀ c ∈ text, c.toNat < 0x80) : read = text := by
  induction h with
  | nil => rfl
  | keep c _ ih => rw [ih fun c hc => htext c (mem_cons_of_mem _ hc)]
  | cut hc _ _ _ => exact absurd (htext _ mem_cons_self) (Nat.not_lt.2 hc)

theorem Garbled.mem (h : Garbled text read) (hc : c ∈ read) : c ∈ text ∨ c = replacement := by
  induction h with
  | nil => exact .inl hc
  | keep c' _ ih =>
    obtain rfl | hc := mem_cons.1 hc
    · exact .inl mem_cons_self
    · exact (ih hc).imp_left (mem_cons_of_mem _)
  | cut _ _ _ ih =>
    obtain hc | hc := mem_append.1 hc
    · exact .inr (mem_replicate.1 hc).2
    · exact (ih hc).imp_left (mem_cons_of_mem _)

theorem Garbled.of_ascii_append (htext : ∀ c ∈ text, c.toNat < 0x80)
    (h : Garbled (text ++ text') read) : ∃ rest, read = text ++ rest ∧ Garbled text' rest := by
  obtain ⟨read₁, read₂, rfl, h₁, h₂⟩ := h.of_append
  exact ⟨read₂, by rw [h₁.eq_of_ascii htext], h₂⟩

theorem Garbled.of_append_ascii (htext : ∀ c ∈ text', c.toNat < 0x80)
    (h : Garbled (text ++ text') read) : ∃ rest, read = rest ++ text' ∧ Garbled text rest := by
  obtain ⟨read₁, read₂, rfl, h₁, h₂⟩ := h.of_append
  exact ⟨read₁, by rw [h₂.eq_of_ascii htext], h₁⟩

theorem Garbled.head (h : Garbled text read) :
    ∀ c ∈ read.head?, c ∈ text.head? ∨ c = replacement := by
  intro c hc
  cases h with
  | nil => cases hc
  | keep c' _ => exact .inl hc
  | @cut _ n _ _ _ hn _ =>
    obtain ⟨m, rfl⟩ : ∃ m, n = m + 1 := ⟨n - 1, by omega⟩
    exact .inr (Option.some.inj hc).symm

theorem Garbled.last (h : Garbled text read) :
    ∀ c ∈ read.getLast?, c ∈ text.getLast? ∨ c = replacement := by
  intro c hc
  cases text using List.reverseRecOn with
  | nil => cases h; cases hc
  | append_singleton text c' =>
    obtain ⟨read₁, read₂, rfl, -, h₂⟩ := h.of_append
    rw [getLast?_concat]
    cases h₂ with
    | keep _ h₂ =>
      cases h₂
      rw [getLast?_concat] at hc
      exact .inl hc
    | @cut _ n _ _ _ hn h₂ =>
      cases h₂
      obtain ⟨m, rfl⟩ : ∃ m, n = m + 1 := ⟨n - 1, by omega⟩
      rw [append_nil, replicate_succ', ← List.append_assoc, getLast?_concat] at hc
      exact .inr (Option.some.inj hc).symm

end Lib
