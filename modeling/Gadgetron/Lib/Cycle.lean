import Mathlib.Logic.Relation
import Mathlib.Data.Set.Finite.Basic
import Mathlib.Order.WellFounded
import Mathlib.Data.Fintype.Order

/-!
# Cycles of a relation on a finite set

A point lies on a cycle of `r` when it is related to itself by the transitive closure of `r`.
-/

namespace Lib

open Relation

variable {α : Type*} {r r' : α → α → Prop}

def OnCycle (r : α → α → Prop) (a : α) : Prop := TransGen r a a

theorem OnCycle.mono (h : ∀ a b, r a b → r' a b) {a : α} (ha : OnCycle r a) : OnCycle r' a :=
  TransGen.mono h _ _ ha

variable {P : α → Prop}

theorem OnCycle.restrict (hP : ∀ x, OnCycle r x → P x) {a : α}
    (ha : OnCycle r a) : OnCycle (fun x y => r x y ∧ P y) a := by
  have key : ∀ {b}, TransGen r a b → ReflTransGen r b a →
      TransGen (fun x y => r x y ∧ P y) a b := by
    intro b hab
    induction hab with
    | single hab =>
      intro hba
      exact TransGen.single ⟨hab, hP _ (TransGen.tail' hba hab)⟩
    | tail hab hbc ih =>
      intro hca
      have hcycle := TransGen.tail' (hca.trans hab.to_reflTransGen) hbc
      exact (ih (hca.head hbc)).tail ⟨hbc, hP _ hcycle⟩
  exact key ha ReflTransGen.refl

theorem exists_onCycle_of_forall_pred {s : Set α} (hs : s.Finite) (hne : s.Nonempty)
    (hpred : ∀ x ∈ s, ∃ y ∈ s, r y x) : ∃ x ∈ s, OnCycle r x := by
  by_contra hno
  simp only [not_exists, not_and] at hno
  have : Finite s := hs
  -- on `s` the transitive closure is a strict order, so some point of `s` has no predecessor
  let q : s → s → Prop := fun x y => TransGen r x.1 y.1
  have : IsTrans s q := ⟨fun _ _ _ hxy hyz => TransGen.trans hxy hyz⟩
  have : Std.Irrefl q := ⟨fun x hx => hno x.1 x.2 hx⟩
  have hwf : WellFounded q := Finite.wellFounded_of_trans_of_irrefl q
  obtain ⟨x₀, hx₀⟩ := hne
  obtain ⟨m, -, hm⟩ := hwf.has_min Set.univ ⟨⟨x₀, hx₀⟩, trivial⟩
  obtain ⟨y, hy, hym⟩ := hpred m.1 m.2
  exact hm ⟨y, hy⟩ trivial (TransGen.single hym)

theorem not_onCycle_of_rank (rank : α → ℕ)
    (h : ∀ a b, r a b → P b → P a ∧ rank a < rank b) {a : α} (ha : P a) : ¬ OnCycle r a := by
  have key : ∀ {x y}, TransGen r x y → P y → P x ∧ rank x < rank y := by
    intro x y hxy
    induction hxy with
    | single hxy => exact h _ _ hxy
    | tail _ hyz ih =>
      intro hz
      obtain ⟨hy, hlt⟩ := h _ _ hyz hz
      exact ⟨(ih hy).1, (ih hy).2.trans hlt⟩
  intro hc
  exact lt_irrefl _ (key hc ha).2

theorem mem_of_transGen {a b : α} (hstart : ∀ x, r a x → P x)
    (hclosed : ∀ x y, P x → r x y → P y) (hab : TransGen r a b) : P b := by
  induction hab with
  | single h => exact hstart _ h
  | tail _ hyz ih => exact hclosed _ _ ih hyz

end Lib
