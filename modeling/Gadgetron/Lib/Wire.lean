import Mathlib.Data.List.Basic

/-!
# Delimited reads from a buffered stream

`read_until` with a byte limit on a buffered reader whose bytes arrive in any number of reads.
-/

namespace Lib

open List

variable {β : Type*} [DecidableEq β]

inductive Feed (β : Type*)
  | done (frame rest : List β)
  | more (frame : List β)

/-- One pass of a read up to `delim` that takes at most `limit` bytes, `frame` of them before. -/
def feed (delim : β) (limit : ℕ) (frame buffer : List β) : Feed β :=
  let available := buffer.take (limit - frame.length)
  let used := available.findIdx (· == delim)
  if used < available.length then
    .done (frame ++ available.take (used + 1)) (buffer.drop (used + 1))
  else if limit ≤ frame.length + available.length then
    .done (frame ++ available) (buffer.drop available.length)
  else .more (frame ++ available)

/-- What a read of `bytes` takes and leaves. -/
def cut (delim : β) (limit : ℕ) (bytes : List β) : List β × List β :=
  bytes.splitAt (min limit (bytes.findIdx (· == delim) + 1))

variable {delim : β}

theorem findIdx_eq_length_of_notMem {l : List β} (h : delim ∉ l) :
    l.findIdx (· == delim) = l.length :=
  findIdx_eq_length.2 fun _ hb => beq_eq_false_iff_ne.2 fun heq => h (heq ▸ hb)

variable {l rest : List β}

theorem findIdx_append_cons (h : delim ∉ l) :
    (l ++ delim :: rest).findIdx (· == delim) = l.length := by
  rw [findIdx_append, findIdx_eq_length_of_notMem h]
  simp [findIdx_cons]

variable {limit : ℕ}

theorem cut_of_lt (h : delim ∉ l) (hlimit : l.length < limit) :
    cut delim limit (l ++ delim :: rest) = (l ++ [delim], rest) := by
  unfold cut
  rw [findIdx_append_cons h, Nat.min_eq_right (by omega), splitAt_eq,
    take_length_add_append, drop_length_add_append]
  rfl

theorem cut_of_length_eq (h : delim ∉ l)
    (hlimit : l.length = limit) : cut delim limit (l ++ rest) = (l, rest) := by
  unfold cut
  rw [findIdx_append, findIdx_eq_length_of_notMem h, if_neg (Nat.lt_irrefl _),
    Nat.min_eq_left (by omega), ← hlimit, splitAt_eq, take_left, drop_left]

/-- A pass that ends the read has read the cut of all bytes, whatever still follows; one that does
not has taken all there was, no delimiter among it. -/
theorem feed_spec {frame buffer : List β} (hframe : delim ∉ frame) (hlimit : frame.length < limit) :
    (∃ taken rest, feed delim limit frame buffer = .done taken rest ∧
        ∀ future, cut delim limit (frame ++ buffer ++ future) = (taken, rest ++ future)) ∨
      (feed delim limit frame buffer = .more (frame ++ buffer) ∧
        delim ∉ frame ++ buffer ∧ (frame ++ buffer).length < limit) := by
  unfold feed
  by_cases hmem : delim ∈ buffer.take (limit - frame.length)
  · -- the delimiter is among the bytes within the limit
    obtain ⟨l, tail, htake, hl⟩ := eq_append_cons_of_mem hmem
    have hlen := congrArg List.length htake
    rw [length_take, List.length_append, length_cons] at hlen
    have hbuffer : buffer = l ++ delim :: (tail ++ buffer.drop (limit - frame.length)) := by
      conv_lhs => rw [← take_append_drop (limit - frame.length) buffer, htake]
      simp
    refine .inl ⟨frame ++ (l ++ [delim]), tail ++ buffer.drop (limit - frame.length), ?_, ?_⟩
    · simp only [htake, findIdx_append_cons hl]
      rw [if_pos (by simp)]
      congr 1
      · rw [take_length_add_append]
        rfl
      · conv_lhs => rw [hbuffer, drop_length_add_append]
        rfl
    · intro future
      have hbytes : frame ++ buffer ++ future =
          (frame ++ l) ++ delim :: (tail ++ buffer.drop (limit - frame.length) ++ future) := by
        conv_lhs => rw [hbuffer]
        simp
      rw [hbytes, cut_of_lt (by simp [hframe, hl]) (by rw [List.length_append]; omega)]
      simp
  · simp only [findIdx_eq_length_of_notMem hmem, Nat.lt_irrefl, if_false]
    by_cases hfull : limit ≤ frame.length + (buffer.take (limit - frame.length)).length
    · refine .inl ⟨frame ++ buffer.take (limit - frame.length),
        buffer.drop (buffer.take (limit - frame.length)).length, by rw [if_pos hfull], ?_⟩
      intro future
      have hlen : (frame ++ buffer.take (limit - frame.length)).length = limit := by
        rw [List.length_append, length_take] at *
        omega
      have hbytes : frame ++ buffer ++ future = frame ++ buffer.take (limit - frame.length) ++
          (buffer.drop (buffer.take (limit - frame.length)).length ++ future) := by
        have hk : (buffer.take (limit - frame.length)).length = limit - frame.length := by
          rw [List.length_append] at hlen
          omega
        rw [hk, List.append_assoc, List.append_assoc, ← List.append_assoc (List.take _ _),
          take_append_drop]
      rw [hbytes, cut_of_length_eq (by simp [hframe, hmem]) hlen]
    · have hshort : buffer.length < limit - frame.length := by
        rw [length_take] at hfull
        omega
      have htake : buffer.take (limit - frame.length) = buffer :=
        take_of_length_le (Nat.le_of_lt hshort)
      rw [if_neg hfull]
      rw [htake] at hmem ⊢
      refine .inr ⟨rfl, by simp [hframe, hmem], by rw [List.length_append]; omega⟩

/-- A buffered reader: the bytes in its buffer, and what the coming reads return, none of them
empty, which would mean the end of the stream. -/
structure BufReader (β : Type*) where
  buffer : List β
  reads : List (List β)
  ne_nil : ∀ read ∈ reads, read ≠ []

def BufReader.bytes (r : BufReader β) : List β := r.buffer ++ r.reads.flatten

/-- The loop of a read up to `delim` that takes at most `limit` bytes: what it took, what it left in
the buffer, and the reads it did not come to. -/
def readLoop (delim : β) (limit : ℕ) :
    List β → List β → List (List β) → List β × List β × List (List β)
  | frame, buffer, [] =>
    match feed delim limit frame buffer with
    | .done frame rest => (frame, rest, [])
    | .more frame => (frame, [], [])
  | frame, buffer, read :: reads =>
    match feed delim limit frame buffer with
    | .done frame rest => (frame, rest, read :: reads)
    | .more frame => readLoop delim limit frame read reads

theorem mem_readLoop {frame buffer : List β} {reads : List (List β)}
    {read : List β} (h : read ∈ (readLoop delim limit frame buffer reads).2.2) : read ∈ reads := by
  induction reads generalizing frame buffer with
  | nil =>
    unfold readLoop at h
    split at h
    all_goals exact h
  | cons next reads ih =>
    unfold readLoop at h
    split at h
    · exact h
    · exact mem_cons_of_mem _ (ih h)

/-- `read_until` on a reader limited to `limit` bytes. -/
def readUntil (delim : β) (limit : ℕ) (r : BufReader β) : List β × BufReader β :=
  let result := readLoop delim limit [] r.buffer r.reads
  (result.1, ⟨result.2.1, result.2.2, fun read h => r.ne_nil read (mem_readLoop h)⟩)

theorem cut_of_notMem {l : List β} (h : delim ∉ l)
    (hlimit : l.length < limit) : cut delim limit l = (l, []) := by
  unfold cut
  rw [findIdx_eq_length_of_notMem h, splitAt_eq, take_of_length_le (by omega),
    drop_eq_nil_of_le (by omega)]

theorem readLoop_eq_cut {frame : List β} (hframe : delim ∉ frame)
    (hlimit : frame.length < limit) (buffer : List β) (reads : List (List β)) :
    ((readLoop delim limit frame buffer reads).1, (readLoop delim limit frame buffer reads).2.1 ++
          (readLoop delim limit frame buffer reads).2.2.flatten) =
      cut delim limit (frame ++ buffer ++ reads.flatten) := by
  induction reads generalizing frame buffer with
  | nil =>
    unfold readLoop
    rcases @feed_spec _ _ _ _ _ buffer hframe hlimit with
      ⟨taken, rest, hfeed, hcut⟩ | ⟨hfeed, hmem, hlen⟩
    · simp only [hfeed]
      exact (hcut _).symm
    · simp only [hfeed, flatten_nil, append_nil]
      exact (cut_of_notMem hmem hlen).symm
  | cons read reads ih =>
    unfold readLoop
    rcases @feed_spec _ _ _ _ _ buffer hframe hlimit with
      ⟨taken, rest, hfeed, hcut⟩ | ⟨hfeed, hmem, hlen⟩
    · simp only [hfeed]
      exact (hcut _).symm
    · simp only [hfeed]
      rw [ih hmem hlen read, flatten_cons, List.append_assoc _ read]

theorem readUntil_eq_cut (hlimit : 0 < limit) (r : BufReader β) :
    ((readUntil delim limit r).1, (readUntil delim limit r).2.bytes) = cut delim limit r.bytes :=
  readLoop_eq_cut (by simp) hlimit r.buffer r.reads

theorem readUntil_zero (delim : β) (r : BufReader β) : (readUntil delim 0 r).1 = [] := by
  show (readLoop delim 0 [] r.buffer r.reads).1 = []
  cases r.reads with
  | nil | cons => simp [readLoop, feed]

theorem readUntil_nil {r : BufReader β} (h : r.bytes = []) (delim : β) (limit : ℕ) :
    (readUntil delim limit r).1 = [] := by
  rcases Nat.eq_zero_or_pos limit with rfl | hlimit
  · exact readUntil_zero delim r
  · have hcut := @readUntil_eq_cut _ _ delim limit hlimit r
    rw [h, cut_of_notMem (by simp) hlimit, Prod.mk.injEq] at hcut
    exact hcut.1

end Lib
