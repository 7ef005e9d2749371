import Mathlib.Algebra.Order.Field.Basic
import Mathlib.Data.Nat.Cast.Order.Ring
import Mathlib.Tactic.Linarith

/-!
# Credit that grows with time

Events are paid from a credit, which grows at a rate up to a bound, the burst.
-/

namespace Lib

section

variable {α : Type*} [LinearOrder α] {xs : List α}

def countIn (start stop : α) (xs : List α) : ℕ :=
  xs.countP fun x => start ≤ x && x ≤ stop

theorem countIn_cons_of_mem {start stop x : α} (hx : start ≤ x ∧ x ≤ stop) :
    countIn start stop (x :: xs) = countIn start stop xs + 1 := by
  unfold countIn
  rw [List.countP_cons_of_pos]
  simpa using hx

theorem countIn_cons_of_notMem {start stop x : α} (hx : ¬ (start ≤ x ∧ x ≤ stop)) :
    countIn start stop (x :: xs) = countIn start stop xs := by
  unfold countIn
  rw [List.countP_cons_of_neg]
  simpa using hx

theorem countIn_eq_of_past {start stop stop' : α} (hpast : ∀ x ∈ xs, x ≤ stop)
    (hle : stop ≤ stop') : countIn start stop' xs = countIn start stop xs := by
  unfold countIn
  refine List.countP_congr fun x hx => ?_
  have hstop := hpast x hx
  simp [hstop, hstop.trans hle]

theorem countIn_eq_zero {start stop : α} (hpast : ∀ x ∈ xs, x < start) :
    countIn start stop xs = 0 := by
  unfold countIn
  rw [List.countP_eq_zero]
  intro x hx
  simp [hpast x hx]

end

/-! ## Credit -/

variable {K : Type*} [Field K] [LinearOrder K] [IsStrictOrderedRing K]
  {burst rate tokens last now : K} {xs : List K}

/-- Every window has at most as many of the instants as the burst and what grows within it. -/
def Paced (burst rate : K) (xs : List K) : Prop :=
  ∀ start stop, start ≤ stop → (countIn start stop xs : K) ≤ burst + rate * (stop - start)

structure Credit (burst rate : K) (xs : List K) (tokens last : K) : Prop where
  past : ∀ x ∈ xs, x ≤ last
  nonneg : 0 ≤ tokens
  le_burst : tokens ≤ burst
  spent : ∀ start ≤ last, (countIn start last xs : K) + tokens ≤ burst + rate * (last - start)
  paced : Paced burst rate xs

theorem credit_full (hburst : 0 ≤ burst) (hrate : 0 ≤ rate) (last : K) :
    Credit burst rate [] burst last where
  past x hx := absurd hx List.not_mem_nil
  nonneg := hburst
  le_burst := le_rfl
  spent start hstart := by
    have hgrown := mul_nonneg hrate (sub_nonneg.2 hstart)
    simpa [countIn] using hgrown
  paced start stop hle := by
    have hgrown := mul_nonneg hrate (sub_nonneg.2 hle)
    simpa [countIn] using add_nonneg hburst hgrown

theorem Credit.refill (h : Credit burst rate xs tokens last) (hrate : 0 ≤ rate)
    (hnow : last ≤ now) : Credit burst rate xs (min (tokens + (now - last) * rate) burst) now := by
  have hburst : 0 ≤ burst := h.nonneg.trans h.le_burst
  have hgrown : 0 ≤ (now - last) * rate := mul_nonneg (sub_nonneg.2 hnow) hrate
  refine ⟨fun x hx => (h.past x hx).trans hnow, le_min (add_nonneg h.nonneg hgrown) hburst,
    min_le_right _ _, fun start hstart => ?_, h.paced⟩
  by_cases hbefore : start ≤ last
  · have hspent := h.spent start hbefore
    have hgrowth := min_le_left (tokens + (now - last) * rate) burst
    rw [countIn_eq_of_past h.past hnow]
    linarith
  · -- A window that starts after the last event has none.
    have hnone : countIn start now xs = 0 :=
      countIn_eq_zero fun x hx => (h.past x hx).trans_lt (not_le.1 hbefore)
    have hwindow := mul_nonneg hrate (sub_nonneg.2 hstart)
    have hfull := min_le_right (tokens + (now - last) * rate) burst
    rw [hnone, Nat.cast_zero, zero_add]
    linarith

theorem Credit.spend (h : Credit burst rate xs tokens now) (hrate : 0 ≤ rate)
    (htokens : 1 ≤ tokens) : Credit burst rate (now :: xs) (tokens - 1) now := by
  refine ⟨?_, sub_nonneg.2 htokens, by linarith [h.le_burst], fun start hstart => ?_,
    fun start stop hle => ?_⟩
  · rintro x (_ | ⟨_, hx⟩)
    · exact le_rfl
    · exact h.past x hx
  · have hspent := h.spent start hstart
    rw [countIn_cons_of_mem ⟨hstart, le_rfl⟩, Nat.cast_add_one]
    linarith
  · by_cases hin : start ≤ now ∧ now ≤ stop
    · have hspent := h.spent start hin.1
      have hrest := mul_nonneg hrate (sub_nonneg.2 hin.2)
      rw [countIn_cons_of_mem hin, countIn_eq_of_past h.past hin.2, Nat.cast_add_one]
      linarith
    · rw [countIn_cons_of_notMem hin]
      exact h.paced start stop hle

end Lib
