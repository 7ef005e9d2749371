import Mathlib.Data.Set.Insert

/-!
# Activities

Some keys are busy, and every active item belongs to a key. A key that is not busy starts with a new
item, and a busy one stops together with its items.
-/

namespace Lib

/-- The keys that are busy, and the active items with the key of each. -/
structure Activity (ι κ : Type*) where
  busy : Set κ
  active : Set (ι × κ)

namespace Activity

variable {ι κ : Type*} {x y : Activity ι κ} {i j : ι} {k : κ}

/-- A key starts with a new item, or stops with all its items. -/
inductive Step (x : Activity ι κ) : Activity ι κ → Prop
  | calm : Step x x
  | start (i : ι) (k : κ) (idle : k ∉ x.busy) : Step x ⟨insert k x.busy, insert (i, k) x.active⟩
  | stop (k : κ) : Step x ⟨x.busy \ {k}, {p ∈ x.active | p.2 ≠ k}⟩

/-- Every busy key has an active item, and no other key has one, nor any key two. -/
structure Matched (x : Activity ι κ) : Prop where
  item : ∀ k ∈ x.busy, ∃ i, (i, k) ∈ x.active
  busy : ∀ i k, (i, k) ∈ x.active → k ∈ x.busy
  unique : ∀ i j k, (i, k) ∈ x.active → (j, k) ∈ x.active → i = j

theorem matched_empty : Matched (⟨∅, ∅⟩ : Activity ι κ) where
  item _ h := h.elim
  busy _ _ h := h.elim
  unique _ _ _ h := h.elim

theorem Matched.busy_iff (h : x.Matched) : k ∈ x.busy ↔ ∃! i, (i, k) ∈ x.active := by
  constructor
  · intro hbusy
    obtain ⟨i, hactive⟩ := h.item k hbusy
    exact ⟨i, hactive, fun j hj => h.unique j i k hj hactive⟩
  · rintro ⟨i, hactive, -⟩
    exact h.busy i k hactive

theorem Matched.start (h : x.Matched) (hidle : k ∉ x.busy) :
    Matched ⟨insert k x.busy, insert (i, k) x.active⟩ where
  item := by
    rintro k' (rfl | hbusy)
    · exact ⟨i, .inl rfl⟩
    · obtain ⟨j, hactive⟩ := h.item k' hbusy
      exact ⟨j, .inr hactive⟩
  busy := by
    rintro j k' (heq | hactive)
    · exact .inl (congrArg Prod.snd heq)
    · exact .inr (h.busy j k' hactive)
  unique := by
    -- the key has no item but the new one
    have hnew : ∀ j, (j, k) ∉ x.active := fun j hactive => hidle (h.busy j k hactive)
    rintro j j' k' (heq | hactive) (heq' | hactive')
    · exact (congrArg Prod.fst heq).trans (congrArg Prod.fst heq').symm
    · obtain ⟨rfl, rfl⟩ := Prod.mk.inj heq
      exact absurd hactive' (hnew j')
    · obtain ⟨rfl, rfl⟩ := Prod.mk.inj heq'
      exact absurd hactive (hnew j)
    · exact h.unique j j' k' hactive hactive'

theorem Matched.stop (h : x.Matched) (k : κ) :
    Matched ⟨x.busy \ {k}, {p ∈ x.active | p.2 ≠ k}⟩ where
  item := by
    rintro k' ⟨hbusy, hne⟩
    obtain ⟨i, hactive⟩ := h.item k' hbusy
    exact ⟨i, hactive, hne⟩
  busy := fun i k' hactive => ⟨h.busy i k' hactive.1, hactive.2⟩
  unique := fun i j k' hi hj => h.unique i j k' hi.1 hj.1

theorem Matched.step (h : x.Matched) (hstep : x.Step y) : y.Matched := by
  cases hstep with
  | calm => exact h
  | start i k hidle => exact h.start hidle
  | stop k => exact h.stop k

end Activity

end Lib
