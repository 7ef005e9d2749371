import Mathlib.Data.List.Sort
import Mathlib.Order.Lattice

/-!
# Maps as lists of keys in order

`BTreeMap` as the list of its entries: `insertKey` replaces the value of a key or puts the entry
where its key belongs, and `List.lookup` finds it again.
-/

namespace Lib

open List

variable {κ ν ν' : Type*}

theorem lookup_cons_of_ne [BEq κ] [LawfulBEq κ] {key k : κ} (v : ν) (l : List (κ × ν))
    (h : key ≠ k) : ((k, v) :: l).lookup key = l.lookup key := by
  rw [lookup_cons, beq_false_of_ne h]

section

variable [LinearOrder κ]

/-- `BTreeMap::insert`. -/
def insertKey (key : κ) (value : ν) : List (κ × ν) → List (κ × ν)
  | [] => [(key, value)]
  | (k, v) :: rest =>
    if key < k then (key, value) :: (k, v) :: rest
    else if key = k then (key, value) :: rest
    else (k, v) :: insertKey key value rest

@[simp] theorem lookup_insertKey_self (key : κ) (value : ν) (l : List (κ × ν)) :
    (insertKey key value l).lookup key = some value := by
  fun_induction insertKey key value l with
  | case1 | case2 | case3 => simp
  | case4 k v rest hlt hne ih => rw [lookup_cons_of_ne _ _ hne, ih]

theorem lookup_insertKey_of_ne {key key' : κ} (value : ν) (l : List (κ × ν)) (h : key' ≠ key) :
    (insertKey key value l).lookup key' = l.lookup key' := by
  fun_induction insertKey key value l with
  | case1 | case2 => rw [lookup_cons_of_ne _ _ h]
  | case3 v rest hlt => rw [lookup_cons_of_ne _ _ h, lookup_cons_of_ne _ _ h]
  | case4 k v rest hlt hne ih => rw [lookup_cons, lookup_cons, ih]

variable {l : List (κ × ν)}

theorem mem_insertKey {key : κ} {value : ν} {entry : κ × ν}
    (h : entry ∈ insertKey key value l) : entry = (key, value) ∨ entry ∈ l := by
  fun_induction insertKey key value l with
  | case1 => exact .inl (mem_singleton.1 h)
  | case2 => exact mem_cons.1 h
  | case3 => exact (mem_cons.1 h).imp_right (mem_cons_of_mem _)
  | case4 k v rest hlt hne ih =>
    rcases mem_cons.1 h with rfl | h
    · exact .inr mem_cons_self
    · exact (ih h).imp_right (mem_cons_of_mem _)

abbrev Ascending (l : List (κ × ν)) : Prop := l.Pairwise fun a b => a.1 < b.1

theorem ascending_insertKey (key : κ) (value : ν) (h : Ascending l) :
    Ascending (insertKey key value l) := by
  fun_induction insertKey key value l with
  | case1 => exact pairwise_singleton _ _
  | case2 k v rest hlt =>
    refine pairwise_cons.2 ⟨fun entry hentry => ?_, h⟩
    rcases mem_cons.1 hentry with rfl | hentry
    · exact hlt
    · exact hlt.trans (rel_of_pairwise_cons h hentry)
  | case3 v rest hlt => exact pairwise_cons.2 (pairwise_cons.1 h)
  | case4 k v rest hlt hne ih =>
    obtain ⟨hfirst, hrest⟩ := pairwise_cons.1 h
    refine pairwise_cons.2 ⟨fun entry hentry => ?_, ih hrest⟩
    rcases mem_insertKey hentry with rfl | hentry
    · exact lt_of_le_of_ne (not_lt.1 hlt) (Ne.symm hne)
    · exact hfirst entry hentry

theorem lookup_eq_some_iff (h : Ascending l) {key : κ} {value : ν} :
    l.lookup key = some value ↔ (key, value) ∈ l := by
  induction l with
  | nil => simp
  | cons entry l ih =>
    obtain ⟨hfirst, hrest⟩ := pairwise_cons.1 h
    by_cases hkey : key = entry.1
    · subst hkey
      rw [lookup_cons, beq_self_eq_true, mem_cons]
      constructor
      · intro hvalue
        exact .inl (Prod.ext rfl (Option.some.inj hvalue).symm)
      · rintro (hentry | hmem)
        · exact congrArg (fun entry : κ × ν => some entry.2) hentry.symm
        · exact absurd (hfirst _ hmem) (lt_irrefl _)
    · rw [lookup_cons, beq_false_of_ne hkey, mem_cons, ← ih hrest]
      exact (or_iff_right fun hentry => hkey (congrArg Prod.fst hentry)).symm

theorem eq_of_lookup {l l' : List (κ × ν)} (h : Ascending l) (h' : Ascending l')
    (hlookup : ∀ key, l.lookup key = l'.lookup key) : l = l' := by
  have hasymm : Std.Asymm fun a b : κ × ν => a.1 < b.1 := ⟨fun _ _ => lt_asymm⟩
  refine h.eq_of_mem_iff h' fun entry => ?_
  rw [← lookup_eq_some_iff h, ← lookup_eq_some_iff h', hlookup]

end

section

theorem lookup_mapValues [BEq κ] (f : ν → ν') (l : List (κ × ν)) (key : κ) :
    (l.map fun entry => (entry.1, f entry.2)).lookup key = (l.lookup key).map f := by
  induction l with
  | nil => rfl
  | cons entry l ih =>
    rw [map_cons, lookup_cons, lookup_cons, ih]
    cases key == entry.1 <;> rfl

theorem lookup_filter_of_ne [BEq κ] [LawfulBEq κ] {key key' : κ} (l : List (κ × ν))
    (h : key' ≠ key) : (l.filter fun entry => entry.1 != key).lookup key' = l.lookup key' := by
  induction l with
  | nil => rfl
  | cons entry l ih =>
    by_cases hkey : entry.1 = key
    · rw [filter_cons_of_neg (by simpa using hkey), ih, lookup_cons_of_ne _ _ (hkey ▸ h)]
    · rw [filter_cons_of_pos (by simpa using hkey), lookup_cons, lookup_cons, ih]

theorem lookup_filter_self [BEq κ] [LawfulBEq κ] (key : κ) (l : List (κ × ν)) :
    (l.filter fun entry => entry.1 != key).lookup key = none := by
  rw [lookup_eq_none_iff]
  intro entry hentry
  have hne : entry.1 ≠ key := bne_iff_ne.1 (List.mem_filter.1 hentry).2
  exact bne_iff_ne.2 hne.symm

end

end Lib
