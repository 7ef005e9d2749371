import Mathlib.Algebra.BigOperators.Group.List.Basic

/-!
# Counters that start again with each period

A counter of the charges of one period. It keeps the date of the last charge: a charge of the same
period is added to it, and a charge of any other period starts it again.
-/

namespace Lib

open List

variable {δ κ M : Type*} [DecidableEq κ] [AddCommMonoid M]

structure Counter (δ M : Type*) where
  last : δ
  used : M

namespace Counter

def charge (period : δ → κ) (s : Counter δ M) (c : δ × M) : Counter δ M where
  last := c.1
  used := if period s.last = period c.1 then s.used + c.2 else c.2

def run (period : δ → κ) (s : Counter δ M) (cs : List (δ × M)) : Counter δ M :=
  cs.foldl (charge period) s

def chargedIn (period : δ → κ) (k : κ) (cs : List (δ × M)) : M :=
  ((cs.filter fun c => period c.1 = k).map Prod.snd).sum

/-- No date of another period comes after one of this period. -/
def Together (period : δ → κ) (k : κ) (ds : List δ) : Prop :=
  ds.Pairwise fun d d' => period d = k → period d' = k

variable {period : δ → κ} {k : κ} {s : Counter δ M} {d : δ} {ds : List δ} {c : δ × M}
  {cs : List (δ × M)}

@[simp] theorem run_nil : run period s ([] : List (δ × M)) = s := rfl

@[simp] theorem run_cons : run period s (c :: cs) = run period (charge period s c) cs := rfl

@[simp] theorem chargedIn_nil : chargedIn period k ([] : List (δ × M)) = 0 := rfl

theorem chargedIn_cons : chargedIn period k (c :: cs) =
      (if period c.1 = k then c.2 else 0) + chargedIn period k cs := by
  unfold chargedIn
  by_cases h : period c.1 = k
  · rw [filter_cons_of_pos (by simpa using h), if_pos h, map_cons, sum_cons]
  · rw [filter_cons_of_neg (by simpa using h), if_neg h, zero_add]

theorem chargedIn_eq_zero (h : ∀ c ∈ cs, c.2 = 0) : chargedIn period k cs = 0 := by
  unfold chargedIn
  apply sum_eq_zero
  intro x hx
  obtain ⟨c, hc, rfl⟩ := List.mem_map.1 hx
  exact h c (mem_of_mem_filter hc)

/-! ## Charges that come together -/

theorem run_used_of_forall (h : ∀ c ∈ cs, period c.1 = k) (hs : period s.last = k) :
    (run period s cs).used = s.used + chargedIn period k cs := by
  induction cs generalizing s with
  | nil => rw [run_nil, chargedIn_nil, add_zero]
  | cons c cs ih =>
    have hc : period c.1 = k := h c mem_cons_self
    rw [run_cons, ih (fun c' hc' => h c' (mem_cons_of_mem c hc')) hc, chargedIn_cons,
      if_pos hc, ← add_assoc]
    unfold charge
    rw [if_pos (hs.trans hc.symm)]

theorem run_used (h : Together period k (cs.map Prod.fst)) (hk : ∃ c ∈ cs, period c.1 = k)
    (hs : period s.last = k → s.used = 0) : (run period s cs).used = chargedIn period k cs := by
  induction cs generalizing s with
  | nil => exact absurd hk (by simp)
  | cons c cs ih =>
    rw [map_cons] at h
    obtain ⟨hafter, htail⟩ := pairwise_cons.1 h
    rw [run_cons, chargedIn_cons]
    by_cases hc : period c.1 = k
    · have hall : ∀ c' ∈ cs, period c'.1 = k := fun c' hc' =>
        hafter c'.1 (List.mem_map_of_mem hc') hc
      rw [run_used_of_forall hall hc, if_pos hc]
      congr 1
      unfold charge
      by_cases hlast : period s.last = k
      · rw [if_pos (hlast.trans hc.symm), hs hlast, zero_add]
      · rw [if_neg (fun e => hlast (e.trans hc))]
    · rw [if_neg hc, zero_add]
      apply ih htail
      · obtain ⟨c', hmem, hc'⟩ := hk
        rcases mem_cons.1 hmem with rfl | hmem
        · exact absurd hc' hc
        · exact ⟨c', hmem, hc'⟩
      · exact fun hlast => absurd hlast hc

/-! ## Charges that do not -/

theorem run_used_of_used (h : ∀ c ∈ cs, c.2 = 0) (hs : s.used = 0) :
    (run period s cs).used = 0 := by
  induction cs generalizing s with
  | nil => exact hs
  | cons c cs ih =>
    rw [run_cons]
    apply ih fun c' hc' => h c' (mem_cons_of_mem c hc')
    have hc : c.2 = 0 := h c mem_cons_self
    unfold charge
    dsimp only
    rw [hc, hs, add_zero, ite_self]

theorem run_used_of_reset (h : ∀ c ∈ cs, c.2 = 0)
    (hreset : ∃ c ∈ cs, period c.1 ≠ period s.last) : (run period s cs).used = 0 := by
  induction cs generalizing s with
  | nil => exact absurd hreset (by simp)
  | cons c cs ih =>
    have htail : ∀ c' ∈ cs, c'.2 = 0 := fun c' hc' => h c' (mem_cons_of_mem c hc')
    rw [run_cons]
    by_cases hc : period s.last = period c.1
    · apply ih htail
      obtain ⟨c', hmem, hne⟩ := hreset
      rcases mem_cons.1 hmem with rfl | hmem
      · exact absurd hc.symm hne
      · exact ⟨c', hmem, fun e => hne (e.trans hc.symm)⟩
    · apply run_used_of_used htail
      unfold charge
      dsimp only
      rw [if_neg hc, h c mem_cons_self]

theorem exists_lost {a : M} (ha : a ≠ 0) (h : ¬ Together period k ds) :
    ∃ cs : List (δ × M), cs.map Prod.fst = ds ∧ (run period s cs).used ≠ chargedIn period k cs := by
  induction ds generalizing s with
  | nil => exact absurd List.Pairwise.nil h
  | cons d ds ih =>
    by_cases htail : Together period k ds
    · -- the head is the charge that is lost, and all that follows is free
      have hhead : ∃ d' ∈ ds, period d = k ∧ period d' ≠ k := by
        by_contra hnone
        refine h (pairwise_cons.2 ⟨fun d' hd' hd => ?_, htail⟩)
        by_contra hne
        exact hnone ⟨d', hd', hd, hne⟩
      obtain ⟨d', hd', hd, hne⟩ := hhead
      have hfree : ∀ c ∈ ds.map fun d => (d, (0 : M)), c.2 = 0 := by
        intro c hc
        obtain ⟨_, -, rfl⟩ := List.mem_map.1 hc
        rfl
      refine ⟨(d, a) :: ds.map fun d => (d, 0), ?_, ?_⟩
      · rw [map_cons, List.map_map]
        exact congrArg _ (List.map_id' ds)
      · have hlost : (run period s ((d, a) :: ds.map fun d => (d, (0 : M)))).used = 0 := by
          rw [run_cons]
          apply run_used_of_reset hfree
          exact ⟨(d', 0), List.mem_map.2 ⟨d', hd', rfl⟩, fun e => hne (e.trans hd)⟩
        rw [hlost, chargedIn_cons, if_pos hd, chargedIn_eq_zero hfree, add_zero]
        exact ha.symm
    · obtain ⟨cs, hcs, hne⟩ := @ih (charge period s (d, 0)) htail
      refine ⟨(d, 0) :: cs, by rw [map_cons, hcs], ?_⟩
      rw [run_cons, chargedIn_cons, ite_self, zero_add]
      exact hne

theorem forall_used_iff {a : M} (ha : a ≠ 0) (hk : ∃ d ∈ ds, period d = k) (hs : s.used = 0) :
    (∀ cs : List (δ × M), cs.map Prod.fst = ds →
      (run period s cs).used = chargedIn period k cs) ↔ Together period k ds := by
  constructor
  · intro h
    by_contra hnot
    obtain ⟨cs, hcs, hne⟩ := @exists_lost δ κ M _ _ period k s ds a ha hnot
    exact hne (h cs hcs)
  · rintro h cs rfl
    refine run_used h ?_ fun _ => hs
    obtain ⟨d, hd, hdk⟩ := hk
    obtain ⟨c, hc, rfl⟩ := List.mem_map.1 hd
    exact ⟨c, hc, hdk⟩

end Counter

end Lib
