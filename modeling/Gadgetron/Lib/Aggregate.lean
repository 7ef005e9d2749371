import Gadgetron.Lib.OrdSet
import Mathlib.Algebra.BigOperators.Group.List.Basic
import Mathlib.Data.List.Induction

/-!
# Aggregation by key

A list is aggregated into a map that holds, for each key, the sum over the elements of the key.
-/

namespace Lib

open List

variable {α κ κ' M : Type*} [LinearOrder κ] [LinearOrder κ'] [AddCommMonoid M]

/-- For each key, the sum of `f` over the elements of the key. -/
def aggregate (key : α → κ) (f : α → M) (l : List α) : OrdMap κ M :=
  l.foldl (fun m a => m.insert (key a) ((m.get? (key a)).getD 0 + f a)) .empty

/-- The sum of `f` over the elements of a key. -/
def sumOf (key : α → κ) (f : α → M) (l : List α) (k : κ) : M :=
  ((l.filter fun a => key a = k).map f).sum

variable (key : α → κ) (f : α → M)

theorem aggregate_concat (l : List α) (a : α) : aggregate key f (l ++ [a]) =
      (aggregate key f l).insert (key a) (((aggregate key f l).get? (key a)).getD 0 + f a) := by
  rw [aggregate, foldl_append]
  rfl

theorem sumOf_concat (l : List α) (a : α) (k : κ) :
    sumOf key f (l ++ [a]) k = if key a = k then sumOf key f l k + f a else sumOf key f l k := by
  rw [sumOf, filter_append, map_append, sum_append]
  by_cases h : key a = k
  · simp [h, sumOf]
  · simp [h, sumOf]

theorem get?_aggregate (l : List α) (k : κ) :
    (aggregate key f l).get? k = if k ∈ l.map key then some (sumOf key f l k) else none := by
  induction l using List.reverseRecOn with
  | nil => rfl
  | append_singleton l a ih =>
    rw [aggregate_concat, OrdMap.get?_insert, sumOf_concat, map_append, map_singleton]
    by_cases hk : k = key a
    · subst hk
      have hold : ((aggregate key f l).get? (key a)).getD 0 = sumOf key f l (key a) := by
        rw [ih]
        split_ifs with hmem
        · rfl
        · have hnone : l.filter (fun b => key b = key a) = [] :=
            filter_eq_nil_iff.2 fun b hb => by
              have hne : key b ≠ key a := fun h => hmem (h ▸ List.mem_map_of_mem hb)
              simpa using hne
          rw [sumOf, hnone]
          rfl
      simp [hold]
    · simp [hk, Ne.symm hk, ih]

theorem mem_keys_aggregate {l : List α} {k : κ} : k ∈ (aggregate key f l).keys ↔ k ∈ l.map key := by
  rw [OrdMap.mem_keys, get?_aggregate]
  split_ifs with h <;> simp [h]

theorem entries_aggregate (l : List α) : (aggregate key f l).entries =
      (aggregate key f l).keys.toList.map fun k => (k, sumOf key f l k) := by
  rw [OrdMap.entries, ← filterMap_eq_map]
  refine filterMap_congr fun k hk => ?_
  rw [get?_aggregate, if_pos ((mem_keys_aggregate key f).1 hk)]
  rfl

theorem sumOf_perm {l l' : List α} (h : l.Perm l') (k : κ) : sumOf key f l k = sumOf key f l' k :=
  ((h.filter _).map f).sum_eq

theorem aggregate_perm {l l' : List α} (h : l.Perm l') :
    aggregate key f l = aggregate key f l' := by
  ext k : 1
  simp only [get?_aggregate, sumOf_perm key f h, (h.map key).mem_iff]

theorem sum_sumOf (l : List α) {keys : List κ} (hnodup : keys.Nodup) :
    (keys.map (sumOf key f l)).sum = ((l.filter fun a => key a ∈ keys).map f).sum := by
  induction l using List.reverseRecOn with
  | nil =>
    have hzero : sumOf key f [] = fun _ => 0 := rfl
    simp [hzero]
  | append_singleton l a ih =>
    have hsplit : (keys.map (sumOf key f (l ++ [a]))).sum =
        (keys.map (sumOf key f l)).sum + if key a ∈ keys then f a else 0 := by
      clear ih
      induction keys with
      | nil => simp
      | cons k keys ih =>
        obtain ⟨hk, hnodup⟩ := nodup_cons.1 hnodup
        rw [map_cons, sum_cons, ih hnodup, sumOf_concat, map_cons, sum_cons]
        by_cases hak : key a = k
        · subst hak
          simp only [hk, if_true, if_false, mem_cons, true_or, add_zero]
          rw [add_right_comm]
        · simp [hak, add_assoc]
    rw [hsplit, ih, filter_append, map_append, sum_append]
    congr 1
    by_cases h : key a ∈ keys <;> simp [h]

theorem sum_entries_aggregate (l : List α) (p : κ → Bool) :
    (((aggregate key f l).entries.filter fun entry => p entry.1).map Prod.snd).sum =
      ((l.filter fun a => p (key a)).map f).sum := by
  have hentries : ((aggregate key f l).entries.filter fun entry => p entry.1).map Prod.snd =
      ((aggregate key f l).keys.toList.filter p).map (sumOf key f l) := by
    rw [entries_aggregate, List.filter_map, List.map_map]
    rfl
  rw [hentries, sum_sumOf key f l ((OrdSet.nodup _).filter p)]
  congr 2
  refine filter_congr fun a ha => ?_
  have hkey : key a ∈ (aggregate key f l).keys :=
    (mem_keys_aggregate key f).2 (List.mem_map_of_mem ha)
  rw [Bool.eq_iff_iff, decide_eq_true_eq, List.mem_filter]
  exact and_iff_right hkey

theorem aggregate_aggregate (coarse : κ → κ') (l : List α) :
    aggregate (fun entry : κ × M => coarse entry.1) Prod.snd (aggregate key f l).entries =
      aggregate (fun a => coarse (key a)) f l := by
  ext k : 1
  rw [get?_aggregate, get?_aggregate]
  have hmem : k ∈ (aggregate key f l).entries.map (fun entry => coarse entry.1) ↔
      k ∈ l.map fun a => coarse (key a) := by
    rw [entries_aggregate, List.map_map, List.mem_map, List.mem_map]
    constructor
    · rintro ⟨fine, hfine, hk⟩
      obtain ⟨a, ha, rfl⟩ := List.mem_map.1 ((mem_keys_aggregate key f).1 hfine)
      exact ⟨a, ha, hk⟩
    · rintro ⟨a, ha, hk⟩
      exact ⟨key a, (mem_keys_aggregate key f).2 (List.mem_map_of_mem ha), hk⟩
  simp only [hmem, sumOf]
  rw [sum_entries_aggregate key f l fun fine => coarse fine = k]

theorem aggregate_filterMap {β : Type*} {key' : β → κ} {f' : β → M} {g : β → Option α} {l : List β}
    (h : ∀ b ∈ l, ∃ a, g b = some a ∧ key a = key' b ∧ f a = f' b) :
    aggregate key f (l.filterMap g) = aggregate key' f' l := by
  induction l using List.reverseRecOn with
  | nil => rfl
  | append_singleton l b ih =>
    obtain ⟨a, ha, hkey, hf⟩ := h b (mem_append_right _ (mem_singleton_self b))
    have hl := ih fun b hb => h b (mem_append_left _ hb)
    have hmap : (l ++ [b]).filterMap g = l.filterMap g ++ [a] := by
      rw [filterMap_append, filterMap_cons, ha, filterMap_nil]
    rw [hmap, aggregate_concat, aggregate_concat, hl, hkey, hf]

end Lib
