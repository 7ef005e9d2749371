import Mathlib.Data.List.Basic

/-!
# Elements with what is known before them

A scan pairs every element of a list with the state that a fold has reached before it.
-/

namespace Lib

open List

variable {σ ι α : Type*}

def scan (f : σ → ι → σ) (s : σ) : List ι → List (σ × ι)
  | [] => []
  | i :: l => (s, i) :: scan f (f s i) l

theorem map_snd_scan (f : σ → ι → σ) (s : σ) (l : List ι) : (scan f s l).map Prod.snd = l := by
  induction l generalizing s with
  | nil => rfl
  | cons i l ih => rw [scan, map_cons, ih]

theorem mem_scan {f : σ → ι → σ} {s s' : σ} {l : List ι} {i : ι} :
    (s', i) ∈ scan f s l ↔ ∃ before after, l = before ++ i :: after ∧ s' = before.foldl f s := by
  induction l generalizing s with
  | nil => simp [scan]
  | cons j l ih =>
    rw [scan, mem_cons, ih]
    constructor
    · rintro (h | ⟨before, after, rfl, rfl⟩)
      · cases h
        exact ⟨[], l, rfl, rfl⟩
      · exact ⟨j :: before, after, rfl, rfl⟩
    · rintro ⟨before, after, h, rfl⟩
      cases before with
      | nil =>
        cases h
        exact .inl rfl
      | cons k before =>
        obtain ⟨rfl, rfl⟩ := cons.inj h
        exact .inr ⟨before, after, rfl, rfl⟩

theorem flatMap_scan (f : σ → ι → σ) (s : σ) (l : List ι) (g : ι → List α) :
    l.flatMap g = (scan f s l).flatMap fun entry => g entry.2 := by
  conv_lhs => rw [← map_snd_scan f s l, flatMap_map]

theorem countP_eq_of_flatMap_eq {f g : ι → List α} {l : List ι} {p : α → Bool}
    (hle : ∀ i ∈ l, (f i).countP p ≤ (g i).countP p) (h : l.flatMap f = l.flatMap g) :
    ∀ i ∈ l, (f i).countP p = (g i).countP p := by
  have hsum : ∀ l : List ι, (∀ i ∈ l, (f i).countP p ≤ (g i).countP p) →
      (l.flatMap f).countP p ≤ (l.flatMap g).countP p ∧
        ((l.flatMap f).countP p = (l.flatMap g).countP p →
          ∀ i ∈ l, (f i).countP p = (g i).countP p) := by
    intro l
    induction l with
    | nil => simp
    | cons j l ih =>
      intro hle
      obtain ⟨hj, hl⟩ := forall_mem_cons.1 hle
      obtain ⟨hrest, heq⟩ := ih hl
      simp only [flatMap_cons, countP_append]
      refine ⟨by omega, fun htotal => forall_mem_cons.2 ⟨by omega, heq (by omega)⟩⟩
  exact (hsum l hle).2 (by rw [h])

end Lib
