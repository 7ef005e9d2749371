import Gadgetron.Lib.OrdSet

/-!
# Windows over a sequence

A queue of bounded length with the set of its elements beside it: the two hold the most recent
elements of the sequence, as long as none of them is put in again while it is there.
-/

namespace Lib

open List

variable {α : Type*}

/-- The last `w` elements of a sequence. -/
def recent (w : ℕ) (l : List α) : List α := l.drop (l.length - w)

theorem length_recent (w : ℕ) (l : List α) : (recent w l).length = min l.length w := by
  unfold recent
  rw [length_drop]
  omega

variable {w : ℕ} {l : List α}

theorem recent_append_of_lt (h : l.length < w) (a : α) :
    recent w (l ++ [a]) = recent w l ++ [a] := by
  unfold recent
  rw [List.length_append, List.length_singleton, Nat.sub_eq_zero_of_le (by omega),
    Nat.sub_eq_zero_of_le (by omega)]
  rfl

theorem recent_append_of_le (hw : 0 < w) (h : w ≤ l.length) (a : α) :
    recent w (l ++ [a]) = (recent w l ++ [a]).tail := by
  unfold recent
  rw [List.length_append, List.length_singleton, ← drop_one,
    ← drop_append_of_le_length (by omega), drop_drop]
  congr 1
  omega

variable [LinearOrder α]

def windowPush (w : ℕ) (a : α) (seen : OrdSet α) (order : List α) : OrdSet α × List α :=
  let seen := seen.insert a
  let order := order ++ [a]
  if w < order.length then
    match order with
    | [] => (seen, order)
    | expired :: order => (seen.erase expired, order)
  else (seen, order)

variable {seen : OrdSet α} {order : List α}

theorem windowPush_of_lt {a : α} {expired : α}
    {rest : List α} (hrest : order ++ [a] = expired :: rest) (hlen : w < (expired :: rest).length) :
    windowPush w a seen order = ((seen.insert a).erase expired, rest) := by
  unfold windowPush
  simp only [hrest, if_pos hlen]

theorem windowPush_of_le {a : α} (hlen : (order ++ [a]).length ≤ w) :
    windowPush w a seen order = (seen.insert a, order ++ [a]) := by
  unfold windowPush
  simp only [if_neg (Nat.not_lt.2 hlen)]

/-- The queue and the set hold the last `w` elements of a sequence, without repetition. -/
structure IsWindow (w : ℕ) (l : List α) (seen : OrdSet α) (order : List α) : Prop where
  order_eq : order = recent w l
  nodup : order.Nodup
  mem_seen : ∀ a, a ∈ seen ↔ a ∈ order

theorem isWindow_nil (w : ℕ) : IsWindow w ([] : List α) OrdSet.empty [] :=
  ⟨by simp [recent], .nil, by simp⟩

theorem IsWindow.push (hw : 0 < w) (h : IsWindow w l seen order) {a : α} (ha : a ∉ seen) :
    IsWindow w (l ++ [a]) (windowPush w a seen order).1 (windowPush w a seen order).2 := by
  have hnew : a ∉ order := fun hmem => ha ((h.mem_seen a).2 hmem)
  have hnodup : (order ++ [a]).Nodup := by
    rw [nodup_append]
    refine ⟨h.nodup, nodup_singleton a, ?_⟩
    intro b hb c hc hbc
    rw [mem_singleton] at hc
    rw [hbc, hc] at hb
    exact hnew hb
  have hlen : order.length = min l.length w := by rw [h.order_eq, length_recent]
  have hmem : ∀ b, b ∈ seen.insert a ↔ b ∈ order ++ [a] := by
    intro b
    rw [OrdSet.mem_insert, h.mem_seen, mem_append, mem_singleton, or_comm]
  by_cases hfull : w < (order ++ [a]).length
  · rw [List.length_append, List.length_singleton] at hfull
    have hrecent := recent_append_of_le hw (by omega : w ≤ l.length) a
    rw [← h.order_eq] at hrecent
    obtain ⟨expired, rest, hrest⟩ : ∃ expired rest, order ++ [a] = expired :: rest :=
      exists_cons_of_ne_nil (by simp)
    rw [hrest] at hnodup hmem hrecent
    rw [nodup_cons] at hnodup
    rw [windowPush_of_lt hrest (by rw [← hrest, List.length_append, List.length_singleton]; omega)]
    refine ⟨hrecent.symm, hnodup.2, ?_⟩
    intro b
    rw [OrdSet.mem_erase, hmem, mem_cons]
    constructor
    · rintro ⟨heq | hb, hne⟩
      · exact absurd heq hne
      · exact hb
    · intro hb
      exact ⟨.inr hb, fun heq => hnodup.1 (heq ▸ hb)⟩
  · rw [List.length_append, List.length_singleton] at hfull
    have hrecent := recent_append_of_lt (by omega : l.length < w) a
    rw [← h.order_eq] at hrecent
    rw [windowPush_of_le (by rw [List.length_append, List.length_singleton]; omega)]
    exact ⟨hrecent.symm, hnodup, hmem⟩

end Lib
