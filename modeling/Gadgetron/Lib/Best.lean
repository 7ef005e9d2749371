import Mathlib.Order.Nat

/-!
# The best of several candidates

Candidates with a weight come one after another, and the heaviest one so far is kept.
-/

namespace Lib

variable {α : Type*} (w : α → ℕ)

/-- Keep the candidate unless what is there is at least as heavy. -/
def keepBest (current : Option α) (candidate : α) : Option α :=
  match current with
  | some a => if w candidate ≤ w a then some a else some candidate
  | none => some candidate

/-- A heaviest one of the candidates, if there is any. -/
def IsBest (P : α → Prop) : Option α → Prop
  | none => ∀ a, ¬P a
  | some a => P a ∧ ∀ b, P b → w b ≤ w a

variable {w} {P Q : α → Prop} {best : Option α}

theorem IsBest.congr (h : IsBest w P best) (hPQ : ∀ a, P a ↔ Q a) : IsBest w Q best := by
  obtain rfl : P = Q := funext fun a => propext (hPQ a)
  exact h

theorem IsBest.unique (hw : Function.Injective w) {best' : Option α} (h : IsBest w P best)
    (h' : IsBest w P best') : best = best' := by
  cases best with
  | none =>
    cases best' with
    | none => rfl
    | some b => exact absurd h'.1 (h b)
  | some a =>
    cases best' with
    | none => exact absurd h.1 (h' a)
    | some b => exact congrArg some (hw (Nat.le_antisymm (h'.2 a h.1) (h.2 b h'.1)))

theorem IsBest.keep (h : IsBest w P best) (c : α) :
    IsBest w (fun a => P a ∨ a = c) (keepBest w best c) := by
  cases best with
  | none =>
    refine ⟨.inr rfl, ?_⟩
    rintro b (hb | rfl)
    · exact absurd hb (h b)
    · exact le_rfl
  | some a =>
    obtain ⟨ha, hmax⟩ := h
    show IsBest w _ (if w c ≤ w a then some a else some c)
    split_ifs with hle
    · refine ⟨.inl ha, ?_⟩
      rintro b (hb | rfl)
      · exact hmax b hb
      · exact hle
    · refine ⟨.inr rfl, ?_⟩
      rintro b (hb | rfl)
      · exact (hmax b hb).trans (not_le.1 hle).le
      · exact le_rfl

theorem IsBest.keepIf (h : IsBest w P best) (condition : Prop) [Decidable condition] (c : α) :
    IsBest w (fun a => P a ∨ condition ∧ a = c)
      (if condition then keepBest w best c else best) := by
  split_ifs with hc
  · exact (h.keep c).congr fun a => by simp [hc]
  · exact h.congr fun a => by simp [hc]

theorem IsBest.foldl (h : IsBest w P best) (l : List α) :
    IsBest w (fun a => P a ∨ a ∈ l) (l.foldl (keepBest w) best) := by
  induction l generalizing P best with
  | nil => exact h.congr fun a => by simp
  | cons c l ih => exact (ih (h.keep c)).congr fun a => by simp [or_assoc]

end Lib
