import Mathlib.Data.Finset.Card
import Mathlib.Data.List.Dedup
import Mathlib.Data.List.Nodup
import Mathlib.Data.List.Range
import Mathlib.Logic.Relation

/-!
# Connected components

The components of a relation on the indexes below a bound: by union-find with compressed paths,
and as the closure of one index under sweeps over all pairs.
-/

namespace Lib

open Relation List Option

/-- The root of an index; every index on the way then points to it. -/
def findRoot : ℕ → List ℕ → ℕ → Option (List ℕ × ℕ)
  | 0, _, _ => none
  | fuel + 1, parents, index => do
    let parent ← parents[index]?
    if parent = index then some (parents, index)
    else
      let (parents, root) ← findRoot fuel parents parent
      some (parents.set index root, root)

def unite (fuel : ℕ) (parents : List ℕ) (left right : ℕ) : Option (List ℕ) := do
  let (parents, left) ← findRoot fuel parents left
  let (parents, right) ← findRoot fuel parents right
  if left ≠ right then some (parents.set right left) else some parents

def rootsOf (fuel : ℕ) : List ℕ → List ℕ → Option (List ℕ)
  | _, [] => some []
  | parents, index :: rest => do
    let (parents, root) ← findRoot fuel parents index
    let roots ← rootsOf fuel parents rest
    some (root :: roots)

def collect (roots : List ℕ) : List (List ℕ) :=
  roots.dedup.map fun root =>
    (List.range roots.length).filter fun index => roots[index]? = some root

def rootCount (n : ℕ) (rep : ℕ → ℕ) : ℕ := {i ∈ Finset.range n | rep i = i}.card

/-- Every index leads to its representative, by fewer steps than its rank. -/
structure Forest (parents : List ℕ) (rep rank : ℕ → ℕ) : Prop where
  step : ∀ {i p}, parents[i]? = some p → p ≠ i →
    p < parents.length ∧ rep p = rep i ∧ rank p < rank i
  root : ∀ {i}, parents[i]? = some i → rep i = i ∧ rank i = 0
  outside : ∀ {i}, parents.length ≤ i → rep i = i
  bound : ∀ {i}, i < parents.length → rank i + rootCount parents.length rep ≤ parents.length

namespace Forest

variable {parents : List ℕ} {rep rank : ℕ → ℕ} {i l r n : ℕ}

theorem range (n : ℕ) : Forest (List.range n) id fun _ => 0 where
  step := by
    intro i p h hne
    obtain ⟨hi, heq⟩ := List.getElem?_eq_some_iff.1 h
    rw [getElem_range] at heq
    exact absurd heq.symm hne
  root _ := ⟨rfl, rfl⟩
  outside _ := rfl
  bound _ := by simp [rootCount]

section

variable (h : Forest parents rep rank)

include h

theorem getElem?_rep (hi : i < parents.length) :
    parents[rep i]? = some (rep i) := by
  induction hk : rank i using Nat.strong_induction_on generalizing i with
  | h k ih =>
    have hget := getElem?_eq_getElem hi
    by_cases hp : parents[i] = i
    · rw [hp] at hget
      rw [(h.root hget).1, hget]
    · obtain ⟨hlt, hrep, hrank⟩ := h.step hget hp
      rw [← hrep]
      exact ih _ (hk ▸ hrank) hlt rfl

theorem rep_lt (hi : i < parents.length) : rep i < parents.length :=
  (List.getElem?_eq_some_iff.1 (h.getElem?_rep hi)).1

theorem rep_rep (i : ℕ) : rep (rep i) = rep i := by
  rcases lt_or_ge i parents.length with hi | hi
  · exact (h.root (h.getElem?_rep hi)).1
  · rw [h.outside hi, h.outside hi]

theorem rank_lt (hi : i < parents.length) :
    rank i < parents.length := by
  have hpos : 0 < rootCount parents.length rep :=
    Finset.card_pos.2 ⟨rep i, Finset.mem_filter.2 ⟨Finset.mem_range.2 (h.rep_lt hi), h.rep_rep i⟩⟩
  have hbound := h.bound hi
  omega

theorem compress (hi : i < parents.length) (hrank : 0 < rank i) :
    Forest (parents.set i (rep i)) rep rank := by
  have hroot := h.root (h.getElem?_rep hi)
  have hne : rep i ≠ i := by
    intro heq
    rw [heq] at hroot
    omega
  constructor
  · intro j p hget hp
    rw [length_set]
    rw [getElem?_set] at hget
    split_ifs at hget with hij
    · obtain rfl := some.inj hget
      rw [← hij, hroot.1, hroot.2]
      exact ⟨h.rep_lt hi, rfl, hrank⟩
    · exact h.step hget hp
  · intro j hget
    rw [getElem?_set] at hget
    split_ifs at hget with hij
    · exact absurd ((some.inj hget).trans hij.symm) hne
    · exact h.root hget
  · intro j hj
    exact h.outside (length_set ▸ hj)
  · intro j hj
    rw [length_set] at hj ⊢
    exact h.bound hj

theorem findRoot {fuel : ℕ} (hi : i < parents.length)
    (hfuel : rank i < fuel) : ∃ parents', findRoot fuel parents i = some (parents', rep i) ∧
      parents'.length = parents.length ∧ Forest parents' rep rank := by
  induction fuel generalizing i with
  | zero => omega
  | succ fuel ih =>
    have hget := getElem?_eq_getElem hi
    by_cases hp : parents[i] = i
    · rw [hp] at hget
      refine ⟨parents, ?_, rfl, h⟩
      simp [Lib.findRoot, hget, (h.root hget).1]
    · obtain ⟨hlt, hrep, hrank⟩ := h.step hget hp
      obtain ⟨parents', hfind, hlength, hforest⟩ := ih hlt (by omega)
      refine ⟨parents'.set i (rep i), ?_, ?_, hforest.compress (hlength ▸ hi) (by omega)⟩
      · simp [Lib.findRoot, hget, hp, hfind, hrep]
      · rw [length_set, hlength]

end

/-- Where an index leads after the class of the right one is put under the left one. -/
def joined (rep : ℕ → ℕ) (l r i : ℕ) : ℕ := if rep i = rep r then rep l else rep i

section

variable (h : Forest parents rep rank)

include h

theorem join (hl : l < parents.length) (hr : r < parents.length)
    (hne : rep l ≠ rep r) : Forest (parents.set (rep r) (rep l)) (joined rep l r)
      fun i => if rep i = rep r then rank i + 1 else rank i := by
  have hcount : rootCount parents.length (joined rep l r) + 1 ≤ rootCount parents.length rep := by
    refine Finset.card_lt_card (Finset.ssubset_iff_subset_ne.2 ⟨fun i hi => ?_, fun heq => ?_⟩)
    · rw [Finset.mem_filter, joined] at hi
      rw [Finset.mem_filter]
      split_ifs at hi with hir
      · exact ⟨hi.1, by rw [← hi.2, h.rep_rep]⟩
      · exact hi
    · have hmem : rep r ∈ ({i ∈ Finset.range parents.length | rep i = i} : Finset ℕ) :=
        Finset.mem_filter.2 ⟨Finset.mem_range.2 (h.rep_lt hr), h.rep_rep r⟩
      rw [← heq, Finset.mem_filter, joined, if_pos (h.rep_rep r)] at hmem
      exact hne hmem.2
  constructor
  · intro i p hget hp
    rw [length_set]
    rw [getElem?_set] at hget
    split_ifs at hget with hi
    · obtain rfl := some.inj hget
      have hrank := (h.root (h.getElem?_rep hl)).2
      subst hi
      simp only [joined, h.rep_rep, hne, if_true, if_false, hrank]
      exact ⟨h.rep_lt hl, trivial, by omega⟩
    · obtain ⟨hlt, hrep, hrank⟩ := h.step hget hp
      simp only [joined, hrep]
      refine ⟨hlt, trivial, ?_⟩
      split_ifs <;> omega
  · intro i hget
    rw [getElem?_set] at hget
    split_ifs at hget with hi
    · exact absurd ((some.inj hget).trans hi.symm) hne
    · obtain ⟨hrep, hrank⟩ := h.root hget
      have hir : rep i ≠ rep r := by
        rw [hrep]
        exact Ne.symm hi
      rw [joined, if_neg hir, if_neg hir]
      exact ⟨hrep, hrank⟩
  · intro i hi
    rw [length_set] at hi
    have hrep := h.outside hi
    have hir : rep i ≠ rep r := by
      have := h.rep_lt hr
      omega
    rw [joined, if_neg hir, hrep]
  · intro i hi
    rw [length_set] at hi ⊢
    have hbound := h.bound hi
    split_ifs <;> omega

theorem unite (hn : parents.length = n) (hl : l < n) (hr : r < n) :
    ∃ parents' rank', unite n parents l r = some parents' ∧ parents'.length = n ∧
      Forest parents' (joined rep l r) rank' := by
  subst hn
  obtain ⟨parents₁, hleft, hlength₁, h₁⟩ := h.findRoot hl (h.rank_lt hl)
  rw [← hlength₁] at hl hr
  obtain ⟨parents₂, hright, hlength₂, h₂⟩ := h₁.findRoot hr (h₁.rank_lt hr)
  rw [← hlength₂] at hl hr
  rw [hlength₁] at hright
  by_cases hne : rep l = rep r
  · have hjoined : joined rep l r = rep := by
      funext i
      rw [joined]
      split_ifs with hi
      · exact hne.trans hi.symm
      · rfl
    rw [hjoined]
    refine ⟨parents₂, rank, ?_, hlength₂.trans hlength₁, h₂⟩
    simp [Lib.unite, hleft, hright, hne]
  · refine ⟨parents₂.set (rep r) (rep l), _, ?_, ?_, h₂.join hl hr hne⟩
    · simp [Lib.unite, hleft, hright, hne]
    · rw [length_set, hlength₂, hlength₁]

theorem rootsOf (hn : parents.length = n) {indexes : List ℕ}
    (hindexes : ∀ i ∈ indexes, i < n) : rootsOf n parents indexes = some (indexes.map rep) := by
  induction indexes generalizing parents with
  | nil => rfl
  | cons i rest ih =>
    subst hn
    have hi := hindexes i mem_cons_self
    obtain ⟨parents', hfind, hlength, h'⟩ := h.findRoot hi (h.rank_lt hi)
    have hrest := ih h' hlength fun j hj => hindexes j (mem_cons_of_mem i hj)
    simp [Lib.rootsOf, hfind, hrest]

end

end Forest

variable {pairs : List (ℕ × ℕ)}

theorem joined_eq_iff {rep : ℕ → ℕ} {l r : ℕ}
    (h : ∀ i j, rep i = rep j ↔ EqvGen (fun a b => (a, b) ∈ pairs) i j) (i j : ℕ) :
    Forest.joined rep l r i = Forest.joined rep l r j ↔
      EqvGen (fun a b => (a, b) ∈ pairs ++ [(l, r)]) i j := by
  have hold : ∀ {i j}, rep i = rep j → EqvGen (fun a b => (a, b) ∈ pairs ++ [(l, r)]) i j :=
    fun heq => ((h _ _).1 heq).mono fun a b hab => mem_append_left _ hab
  have hnew : EqvGen (fun a b => (a, b) ∈ pairs ++ [(l, r)]) l r :=
    .rel _ _ (mem_append_right _ (mem_singleton_self _))
  constructor
  · intro heq
    unfold Forest.joined at heq
    split_ifs at heq with hi hj hj
    · exact hold (hi.trans hj.symm)
    · exact ((hold hi).trans _ _ _ (hnew.symm _ _)).trans _ _ _ (hold heq)
    · exact ((hold heq).trans _ _ _ hnew).trans _ _ _ (hold hj.symm)
    · exact hold heq
  · intro heqv
    induction heqv with
    | rel a b hab =>
      rcases mem_append.1 hab with hab | hab
      · rw [Forest.joined, Forest.joined, (h a b).2 (.rel _ _ hab)]
      · obtain ⟨rfl, rfl⟩ := Prod.mk.inj (mem_singleton.1 hab)
        simp [Forest.joined]
    | refl a => rfl
    | symm a b _ ih => exact ih.symm
    | trans a b c _ _ ihab ihbc => exact ihab.trans ihbc

theorem foldlM_unite {n : ℕ} (hpairs : ∀ pair ∈ pairs, pair.1 < n ∧ pair.2 < n) :
    ∃ parents rep rank,
      pairs.foldlM (fun parents pair => unite n parents pair.1 pair.2) (List.range n) =
          some parents ∧ parents.length = n ∧ Forest parents rep rank ∧
          ∀ i j, rep i = rep j ↔ EqvGen (fun a b => (a, b) ∈ pairs) i j := by
  induction pairs using List.reverseRecOn with
  | nil =>
    refine ⟨List.range n, id, _, rfl, length_range, .range n, fun i j => ⟨?_, fun h => ?_⟩⟩
    · rintro rfl
      exact .refl _
    · induction h with
      | rel a b hab => cases hab
      | refl a => rfl
      | symm a b _ ih => exact ih.symm
      | trans a b c _ _ ihab ihbc => exact ihab.trans ihbc
  | append_singleton pairs pair ih =>
    obtain ⟨parents, rep, rank, hfold, hlength, hforest, hrep⟩ :=
      ih fun pair hpair => hpairs pair (mem_append_left _ hpair)
    obtain ⟨hl, hr⟩ := hpairs pair (mem_append_right _ (mem_singleton_self _))
    obtain ⟨parents', rank', hunite, hlength', hforest'⟩ := hforest.unite hlength hl hr
    refine ⟨parents', _, rank', ?_, hlength', hforest', joined_eq_iff hrep⟩
    simp [List.foldlM_append, hfold, hunite]

section

variable {n : ℕ} {rep : ℕ → ℕ}

theorem mem_collect {members : List ℕ} : members ∈ collect ((List.range n).map rep) ↔
    ∃ i < n, members = (List.range n).filter (rep · = rep i) := by
  have hfilter : ∀ root, (List.range ((List.range n).map rep).length).filter
      (fun index => ((List.range n).map rep)[index]? = some root) =
        (List.range n).filter (rep · = root) := by
    intro root
    rw [List.length_map, length_range]
    refine filter_congr fun i hi => ?_
    simp [mem_range.1 hi]
  simp only [collect, hfilter, List.mem_map, mem_dedup, mem_range]
  constructor
  · rintro ⟨_, ⟨i, hi, rfl⟩, rfl⟩
    exact ⟨i, hi, rfl⟩
  · rintro ⟨i, hi, rfl⟩
    exact ⟨_, ⟨i, hi, rfl⟩, rfl⟩

theorem nodup_flatten_collect (roots : List ℕ) : (collect roots).flatten.Nodup := by
  rw [nodup_flatten]
  constructor
  · intro members hmembers
    obtain ⟨root, -, rfl⟩ := List.mem_map.1 hmembers
    exact nodup_range.filter _
  · rw [collect, pairwise_map]
    refine (nodup_dedup roots).imp fun hne i hi hi' => hne ?_
    have hroot := (List.mem_filter.1 hi).2
    have hroot' := (List.mem_filter.1 hi').2
    rw [decide_eq_true_eq] at hroot hroot'
    exact mem_unique hroot hroot'

end

/-! ## Sweeps -/

section

variable (link : ℕ → ℕ → Bool) (n : ℕ)

def sweepFrom (left : ℕ) (reached : List ℕ) : List ℕ :=
  (List.range n).foldl (fun reached right =>
    if reached.contains right then reached
    else if link left right then right :: reached else reached) reached

/-- A pass over the indexes, those that it reaches included. -/
def sweep (reached : List ℕ) : List ℕ :=
  (List.range n).foldl (fun reached left =>
    if reached.contains left then sweepFrom link n left reached else reached) reached

/-- Passes until one reaches nothing more. -/
def sweepAll : ℕ → List ℕ → Option (List ℕ)
  | 0, _ => none
  | fuel + 1, reached =>
    let next := sweep link n reached
    if next.length = reached.length then some next else sweepAll fuel next

def Linked (i j : ℕ) : Prop := i < n ∧ j < n ∧ link i j

structure Reached (reached : List ℕ) : Prop where
  nodup : reached.Nodup
  connected : ∀ i ∈ reached, i < n ∧ EqvGen (Linked link n) 0 i

variable {link n} {reached : List ℕ}

theorem foldl_keeps {α β : Type*} {p : α → Prop} {f : α → β → α} {l : List β}
    (hf : ∀ s, p s → ∀ x ∈ l, p (f s x)) {s : α} (hs : p s) : p (l.foldl f s) := by
  induction l generalizing s with
  | nil => exact hs
  | cons x l ih =>
    exact ih (fun s hs y hy => hf s hs y (mem_cons_of_mem x hy)) (hf s hs x mem_cons_self)

theorem suffix_foldl {β : Type*} {f : List ℕ → β → List ℕ} (hf : ∀ s x, s <:+ f s x) (l : List β)
    (s : List ℕ) : s <:+ l.foldl f s :=
  foldl_keeps (p := (s <:+ ·)) (fun t ht x _ => ht.trans (hf t x)) suffix_rfl

theorem step_eq_self {β : Type*} {f : List ℕ → β → List ℕ} (hf : ∀ s x, s <:+ f s x) {l : List β}
    {s : List ℕ} (h : l.foldl f s = s) : ∀ x ∈ l, f s x = s := by
  induction l with
  | nil => simp
  | cons y l ih =>
    rw [foldl_cons] at h
    have hback := suffix_foldl hf l (f s y)
    rw [h] at hback
    have hy : f s y = s := hback.eq_of_length_le (hf s y).length_le
    rw [hy] at h
    intro x hx
    rcases mem_cons.1 hx with rfl | hx
    · exact hy
    · exact ih h x hx

theorem suffix_step (left : ℕ) (s : List ℕ) (right : ℕ) :
    s <:+ if s.contains right then s else if link left right then right :: s else s := by
  split_ifs
  · exact suffix_rfl
  · exact suffix_cons _ _
  · exact suffix_rfl

theorem suffix_passStep (s : List ℕ) (left : ℕ) :
    s <:+ if s.contains left then sweepFrom link n left s else s := by
  split_ifs
  · exact suffix_foldl (suffix_step left) _ s
  · exact suffix_rfl

theorem Reached.sweep (h : Reached link n reached) : Reached link n (sweep link n reached) := by
  refine foldl_keeps (fun s hs left hleft => ?_) h
  split_ifs with hmem
  · rw [contains_iff_mem] at hmem
    refine (foldl_keeps (p := fun s => Reached link n s ∧ left ∈ s) (fun t ht right hright => ?_)
      ⟨hs, hmem⟩).1
    split_ifs with hold hlink
    · exact ht
    · rw [contains_iff_mem] at hold
      have hright := mem_range.1 hright
      obtain ⟨hlt, hconn⟩ := ht.1.connected left ht.2
      refine ⟨⟨nodup_cons.2 ⟨hold, ht.1.nodup⟩, fun i hi => ?_⟩, mem_cons_of_mem _ ht.2⟩
      rcases mem_cons.1 hi with rfl | hi
      · exact ⟨hright, hconn.trans _ _ _ (.rel _ _ ⟨hlt, hright, hlink⟩)⟩
      · exact ht.1.connected i hi
    · exact ht
  · exact hs

theorem Reached.subset_range (h : Reached link n reached) : reached ⊆ List.range n :=
  fun i hi => mem_range.2 (h.connected i hi).1

theorem Reached.length_le (h : Reached link n reached) : reached.length ≤ n := by
  simpa using (h.nodup.subperm h.subset_range).length_le

theorem closed_of_sweep (h : sweep link n reached = reached) {left right : ℕ}
    (hleft : left ∈ reached) (hlink : Linked link n left right) : right ∈ reached := by
  have hpass := step_eq_self suffix_passStep h left (mem_range.2 hlink.1)
  rw [if_pos (contains_iff_mem.2 hleft)] at hpass
  have hstep := step_eq_self (suffix_step left) hpass right (mem_range.2 hlink.2.1)
  by_contra hnot
  rw [if_neg (by rwa [contains_iff_mem]), if_pos hlink.2.2] at hstep
  simpa using congrArg List.length hstep

theorem sweepAll_spec (fuel : ℕ) (h : Reached link n reached) (hfuel : n < fuel + reached.length) :
    ∃ all, sweepAll link n fuel reached = some all ∧ reached ⊆ all ∧ Reached link n all ∧
      ∀ left ∈ all, ∀ right, Linked link n left right → right ∈ all := by
  induction fuel generalizing reached with
  | zero =>
    have := h.length_le
    omega
  | succ fuel ih =>
    have hsuffix : reached <:+ sweep link n reached := suffix_foldl suffix_passStep _ _
    rw [sweepAll]
    by_cases hlength : (sweep link n reached).length = reached.length
    · have hsame := (hsuffix.eq_of_length hlength.symm).symm
      refine ⟨_, if_pos hlength, hsuffix.subset, h.sweep, ?_⟩
      rw [hsame]
      exact fun left hleft right hlink => closed_of_sweep hsame hleft hlink
    · have hle := hsuffix.length_le
      obtain ⟨all, hall, hsub, hreached, hclosed⟩ := ih h.sweep (by omega)
      refine ⟨all, (if_neg hlength).trans hall, fun i hi => ?_, hreached, hclosed⟩
      exact hsub (hsuffix.subset hi)

theorem sweepAll_iff (hn : 0 < n) (hsymm : ∀ i j, link i j = link j i) :
    ∃ all, sweepAll link n (n + 1) [0] = some all ∧
      (all.length = n ↔ ∀ i < n, EqvGen (Linked link n) 0 i) := by
  have hstart : Reached link n [0] :=
    ⟨nodup_singleton 0, fun i hi => by
      rw [mem_singleton.1 hi]
      exact ⟨hn, .refl 0⟩⟩
  obtain ⟨all, hall, hsub, hreached, hclosed⟩ := sweepAll_spec (n + 1) hstart (by omega)
  refine ⟨all, hall, fun hlength i hi => ?_, fun hconn => ?_⟩
  · have hsubperm := hreached.nodup.subperm hreached.subset_range
    have hperm : all.Perm (List.range n) :=
      hsubperm.perm_of_length_le (by rw [length_range, hlength])
    exact (hreached.connected i (hperm.mem_iff.2 (mem_range.2 hi))).2
  · have hmem : ∀ {i j}, EqvGen (Linked link n) i j → (i ∈ all ↔ j ∈ all) := by
      intro i j h
      induction h with
      | rel a b hab =>
        refine ⟨fun ha => hclosed a ha b hab, fun hb => hclosed b hb a ?_⟩
        exact ⟨hab.2.1, hab.1, hsymm a b ▸ hab.2.2⟩
      | refl a => rfl
      | symm a b _ ih => exact ih.symm
      | trans a b c _ _ ihab ihbc => exact ihab.trans ihbc
    have hrange : List.range n ⊆ all := fun i hi =>
      (hmem (hconn i (mem_range.1 hi))).1 (hsub (mem_singleton_self 0))
    have hle := (nodup_range.subperm hrange).length_le
    rw [length_range] at hle
    have hle' := hreached.length_le
    omega

end

end Lib
