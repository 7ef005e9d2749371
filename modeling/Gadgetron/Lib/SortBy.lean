import Mathlib.Data.List.Destutter
import Mathlib.Data.List.Sort

/-!
# Sorting by a comparison function

`sortBy` is the stable sort of a list by a function into `Ordering`. When the comparison is that of
a key that tells the elements apart, the result depends only on the elements.
-/

namespace Lib

open List

variable {α β : Type*} {cmp : α → α → Ordering}

def sortBy (cmp : α → α → Ordering) (l : List α) : List α :=
  l.insertionSort fun a b => cmp a b ≠ .gt

theorem sortBy_perm (cmp : α → α → Ordering) (l : List α) : (sortBy cmp l).Perm l :=
  perm_insertionSort _ l

theorem mem_sortBy {l : List α} {a : α} : a ∈ sortBy cmp l ↔ a ∈ l :=
  (sortBy_perm cmp l).mem_iff

section

variable [LinearOrder β] {key : α → β}

section

variable (hcmp : ∀ a b, cmp a b = compare (key a) (key b))

include hcmp

theorem cmp_ne_gt_iff (a b : α) :
    cmp a b ≠ .gt ↔ key a ≤ key b := by
  rw [hcmp, compare_le_iff_le]

theorem isTrans_cmp :
    IsTrans α fun a b => cmp a b ≠ .gt := ⟨fun a b c => by
  rw [cmp_ne_gt_iff hcmp, cmp_ne_gt_iff hcmp, cmp_ne_gt_iff hcmp]
  exact le_trans⟩

theorem total_cmp :
    Std.Total fun a b => cmp a b ≠ .gt := ⟨fun a b => by
  rw [cmp_ne_gt_iff hcmp, cmp_ne_gt_iff hcmp]
  exact le_total _ _⟩

theorem sortBy_pairwise_le (l : List α) :
    (sortBy cmp l).Pairwise fun a b => key a ≤ key b := by
  have := isTrans_cmp hcmp
  have := total_cmp hcmp
  exact (pairwise_insertionSort _ l).imp fun {a b} h => (cmp_ne_gt_iff hcmp a b).1 h

theorem filter_sortBy (l : List α) (k : β) :
    (sortBy cmp l).filter (key · = k) = l.filter (key · = k) := by
  have := isTrans_cmp hcmp
  have := total_cmp hcmp
  have hkeys : (l.filter (key · = k)).Pairwise fun a b => cmp a b ≠ .gt := by
    refine pairwise_of_forall_mem_list fun a ha b hb => (cmp_ne_gt_iff hcmp a b).2 ?_
    have hka : key a = k := by simpa using (List.mem_filter.1 ha).2
    have hkb : key b = k := by simpa using (List.mem_filter.1 hb).2
    rw [hka, hkb]
  have hsub := (sublist_insertionSort hkeys filter_sublist).filter (key · = k)
  rw [List.filter_filter] at hsub
  simp only [Bool.and_self] at hsub
  exact (hsub.eq_of_length ((sortBy_perm cmp l).filter _).length_eq.symm).symm

theorem sortBy_pairwise_lt {l : List α}
    (hl : (l.map key).Nodup) : (sortBy cmp l).Pairwise fun a b => key a < key b := by
  have hne : (sortBy cmp l).Pairwise fun a b => key a ≠ key b := by
    rw [← pairwise_map]
    exact ((sortBy_perm cmp l).map key).nodup_iff.2 hl
  exact ((sortBy_pairwise_le hcmp l).and hne).imp fun h => lt_of_le_of_ne h.1 h.2

end

variable {l l' : List α}

theorem sortBy_eq_of_perm (hcmp : ∀ a b, cmp a b = compare (key a) (key b))
    (hl : (l.map key).Nodup) (hp : l.Perm l') : sortBy cmp l = sortBy cmp l' := by
  have hl' : (l'.map key).Nodup := (hp.map key).nodup_iff.1 hl
  refine Perm.eq_of_pairwise ?_ (sortBy_pairwise_lt hcmp hl) (sortBy_pairwise_lt hcmp hl')
    ((sortBy_perm cmp l).trans (hp.trans (sortBy_perm cmp l').symm))
  intro a b _ _ hab hba
  exact absurd hab hba.asymm

theorem eq_of_pairwise_lt (hl : l.Pairwise fun a b => key a < key b)
    (hl' : l'.Pairwise fun a b => key a < key b) (h : ∀ a, a ∈ l ↔ a ∈ l') : l = l' := by
  have hnodup : ∀ {m : List α}, m.Pairwise (fun a b => key a < key b) → m.Nodup := fun hm =>
    hm.imp fun hlt heq => hlt.ne (congrArg key heq)
  refine Perm.eq_of_pairwise (fun a b _ _ hab hba => absurd hab hba.asymm) hl hl' ?_
  exact (perm_ext_iff_of_nodup (hnodup hl) (hnodup hl')).2 h

theorem key_head_le {l : List α} (hl : l.Pairwise fun a b => key a ≤ key b) {a b : α}
    (ha : l.head? = some a) (hb : b ∈ l) : key a ≤ key b := by
  obtain ⟨l, rfl⟩ := head?_eq_some_iff.1 ha
  rcases mem_cons.1 hb with rfl | hb
  · exact le_rfl
  · exact rel_of_pairwise_cons hl hb

theorem map_head?_eq {γ : Type*} (hl : l.Pairwise fun a b => key a ≤ key b)
    (hl' : l'.Pairwise fun a b => key a ≤ key b) (hmem : ∀ a, a ∈ l ↔ a ∈ l') {f : α → γ}
    (hf : ∀ a ∈ l, ∀ b ∈ l, key a = key b → f a = f b) : l.head?.map f = l'.head?.map f := by
  cases h : l.head? with
  | none =>
    have hnil : l' = [] := by
      rw [head?_eq_none_iff] at h
      exact eq_nil_iff_forall_not_mem.2 fun a ha => by simpa [h] using (hmem a).2 ha
    rw [hnil]
    rfl
  | some a =>
    have ha := mem_of_mem_head? h
    cases h' : l'.head? with
    | none =>
      rw [head?_eq_none_iff] at h'
      rw [hmem, h'] at ha
      cases ha
    | some b =>
      have hb := (hmem b).2 (mem_of_mem_head? h')
      have hkey := le_antisymm (key_head_le hl h hb) (key_head_le hl' h' ((hmem a).1 ha))
      exact congrArg some (hf a ha b hb hkey)

end

section

variable {α β : Type} (key : α → β)

theorem find?_destutter [DecidableEq β] (l : List α) (k : β) :
    (l.destutter fun x y => key x ≠ key y).find? (key · = k) = l.find? (key · = k) := by
  have hfrom : ∀ (l : List α) (p : α),
      (l.destutter' (fun x y => key x ≠ key y) p).find? (key · = k) =
        (p :: l).find? (key · = k) := by
    intro l
    induction l with
    | nil =>
      intro p
      rfl
    | cons c l ih =>
      intro p
      by_cases hkey : key p ≠ key c
      · rw [destutter'_cons_pos l hkey, find?_cons, ih c]
        rfl
      · rw [destutter'_cons_neg l hkey, ih p]
        have hsame : key c = key p := (not_not.1 hkey).symm
        by_cases hk : key p = k
        · simp [hk]
        · simp [hsame, hk]
  cases l with
  | nil => rfl
  | cons p l => exact hfrom l p

variable {l : List α}

theorem exists_mem_destutter [DecidableEq β] {a : α} (ha : a ∈ l) :
    ∃ b ∈ l.destutter fun x y => key x ≠ key y, key b = key a := by
  have hsome : (l.find? (key · = key a)).isSome := by
    rw [find?_isSome]
    exact ⟨a, ha, decide_eq_true rfl⟩
  obtain ⟨b, hb⟩ := Option.isSome_iff_exists.1 hsome
  rw [← find?_destutter] at hb
  have hkey := find?_some hb
  exact ⟨b, mem_of_find?_eq_some hb, of_decide_eq_true hkey⟩

theorem pairwise_lt_of_isChain [LinearOrder β] {key : α → β}
    (hle : l.Pairwise fun a b => key a ≤ key b) (hne : l.IsChain fun a b => key a ≠ key b) :
    l.Pairwise fun a b => key a < key b := by
  induction l with
  | nil => exact .nil
  | cons a l ih =>
    rw [pairwise_cons] at hle
    refine pairwise_cons.2 ⟨fun c hc => ?_, ih hle.2 hne.tail⟩
    cases l with
    | nil => cases hc
    | cons b l =>
      have hab := lt_of_le_of_ne (hle.1 b mem_cons_self) (isChain_cons_cons.1 hne).1
      exact hab.trans_le (key_head_le hle.2 rfl hc)

theorem mem_destutter_sortBy [LinearOrder β] {key : α → β} {cmp : α → α → Ordering}
    (hcmp : ∀ a b, cmp a b = compare (key a) (key b)) {a : α} :
    (a ∈ (sortBy cmp l).destutter fun x y => key x ≠ key y) ↔ l.find? (key · = key a) = some a := by
  have hfind : ((sortBy cmp l).destutter fun x y => key x ≠ key y).find? (key · = key a) =
      l.find? (key · = key a) := by
    rw [find?_destutter, ← head?_filter, filter_sortBy hcmp, head?_filter]
  have hle := (sortBy_pairwise_le hcmp l).sublist (destutter_sublist (fun x y => key x ≠ key y) _)
  have hlt := pairwise_lt_of_isChain hle (isChain_destutter _ _)
  rw [← hfind]
  refine ⟨fun ha => ?_, mem_of_find?_eq_some⟩
  obtain ⟨b, hb⟩ : ∃ b, ((sortBy cmp l).destutter fun x y => key x ≠ key y).find?
      (key · = key a) = some b := by
    rw [← Option.isSome_iff_exists, find?_isSome]
    exact ⟨a, ha, decide_eq_true rfl⟩
  have hfound := find?_some hb
  have hkey : key b = key a := of_decide_eq_true hfound
  have hnodup : (((sortBy cmp l).destutter fun x y => key x ≠ key y).map key).Nodup :=
    (pairwise_map.2 hlt).imp fun h => h.ne
  rw [hb, inj_on_of_nodup_map hnodup (mem_of_find?_eq_some hb) ha hkey]

end

end Lib
