import Mathlib.Data.List.Sort
import Mathlib.Data.List.Dedup
import Mathlib.Data.List.Perm.Subperm
import Mathlib.Logic.Function.Basic

/-!
# Ordered sets and maps

An ordered set is kept as the strictly increasing list of its elements, so that iterating over it
visits the elements in order and two sets with the same elements are equal.
-/

namespace Lib

open List Option

/-- A finite set over a linear order, as the strictly increasing list of its elements. -/
structure OrdSet (α : Type*) [LT α] where
  toList : List α
  sorted : toList.Pairwise (· < ·)

namespace OrdSet

section

variable {α : Type*} [LT α]

instance : Membership α (OrdSet α) := ⟨fun s a => a ∈ s.toList⟩

variable {s : OrdSet α}

@[simp] theorem mem_toList {a : α} : a ∈ s.toList ↔ a ∈ s := Iff.rfl

@[simp] theorem mem_mk {a : α} {l : List α} {h : l.Pairwise (· < ·)} :
    a ∈ (⟨l, h⟩ : OrdSet α) ↔ a ∈ l := Iff.rfl

instance [DecidableEq α] (a : α) (s : OrdSet α) : Decidable (a ∈ s) :=
  inferInstanceAs (Decidable (a ∈ s.toList))

theorem toList_injective : Function.Injective (toList : OrdSet α → List α) := by
  rintro ⟨l, hl⟩ ⟨l', hl'⟩ h
  cases h
  rfl

def empty : OrdSet α := ⟨[], List.Pairwise.nil⟩

@[simp] theorem not_mem_empty (a : α) : a ∉ (empty : OrdSet α) := not_mem_nil

def length (s : OrdSet α) : ℕ := s.toList.length

/-- The elements satisfying `p`. -/
def filter (p : α → Bool) (s : OrdSet α) : OrdSet α := ⟨s.toList.filter p, s.sorted.filter p⟩

@[simp] theorem mem_filter {p : α → Bool} {a : α} :
    a ∈ s.filter p ↔ a ∈ s ∧ p a = true := List.mem_filter

def erase [DecidableEq α] (s : OrdSet α) (a : α) : OrdSet α := s.filter fun b => decide (b ≠ a)

@[simp] theorem mem_erase [DecidableEq α] {a b : α} : b ∈ s.erase a ↔ b ∈ s ∧ b ≠ a := by
  simp [erase]

/-- Set inclusion, decided by walking over the smaller set. -/
def isSubset [DecidableEq α] (s t : OrdSet α) : Bool := s.toList.all fun a => decide (a ∈ t)

@[simp] theorem isSubset_iff [DecidableEq α] {s t : OrdSet α} :
    s.isSubset t = true ↔ ∀ a ∈ s, a ∈ t := by
  simp [isSubset]

def isEmpty (s : OrdSet α) : Bool := s.toList.isEmpty

@[simp] theorem isEmpty_iff : s.isEmpty = true ↔ ∀ a, a ∉ s := by
  simp [isEmpty, List.isEmpty_iff, eq_nil_iff_forall_not_mem]

def popFirst (s : OrdSet α) : Option (α × OrdSet α) :=
  match s with
  | ⟨[], _⟩ => none
  | ⟨a :: l, h⟩ => some (a, ⟨l, h.of_cons⟩)

theorem popFirst_eq_none (h : s.popFirst = none) (a : α) : a ∉ s := by
  match s, h with
  | ⟨[], _⟩, _ => exact not_mem_nil

end

section

variable {α : Type*} [LinearOrder α] {s t : OrdSet α}

@[ext] theorem ext (h : ∀ a, a ∈ s ↔ a ∈ t) : s = t :=
  toList_injective (Pairwise.eq_of_mem_iff s.sorted t.sorted fun {a} => h a)

theorem nodup (s : OrdSet α) : s.toList.Nodup := s.sorted.imp ne_of_lt

theorem popFirst_eq_some {a : α} (h : s.popFirst = some (a, t)) :
    a ∈ s ∧ a ∉ t ∧ ∀ b, b ∈ t ↔ b ∈ s ∧ b ≠ a := by
  match s, h with
  | ⟨c :: l, hs⟩, h =>
    obtain ⟨rfl, rfl⟩ : c = a ∧ (⟨l, hs.of_cons⟩ : OrdSet α) = t := by simpa [popFirst] using h
    have hc : c ∉ l := fun hl => lt_irrefl c (rel_of_pairwise_cons hs hl)
    refine ⟨mem_cons_self, hc, fun b => ?_⟩
    simp only [mem_mk, mem_cons]
    refine ⟨fun hb => ⟨Or.inr hb, ?_⟩, fun hb => hb.1.resolve_left hb.2⟩
    rintro rfl
    exact hc hb

def ofList (l : List α) : OrdSet α :=
  ⟨l.dedup.insertionSort (· ≤ ·), by
    have hnd : (l.dedup.insertionSort (· ≤ ·)).Nodup :=
      (perm_insertionSort _ _).nodup_iff.2 l.nodup_dedup
    exact ((pairwise_insertionSort (· ≤ ·) l.dedup).and hnd).imp
      fun h => lt_of_le_of_ne h.1 h.2⟩

variable {l : List α}

@[simp] theorem mem_ofList {a : α} : a ∈ ofList l ↔ a ∈ l := by
  rw [ofList, mem_mk, mem_insertionSort, mem_dedup]

def insert (a : α) (s : OrdSet α) : OrdSet α := ofList (a :: s.toList)

@[simp] theorem mem_insert {a b : α} {s : OrdSet α} : b ∈ s.insert a ↔ b = a ∨ b ∈ s := by
  simp [insert]

/-- The elements of `s` that are not in `t`. -/
def diff (s t : OrdSet α) : OrdSet α := s.filter fun a => decide (a ∉ t)

@[simp] theorem mem_diff {a : α} : a ∈ s.diff t ↔ a ∈ s ∧ a ∉ t := by
  simp [diff]

theorem length_le_of_nodup {s : OrdSet α} (hl : l.Nodup) (h : ∀ a ∈ l, a ∈ s) :
    l.length ≤ s.length :=
  (subperm_of_subset hl h).length_le

end

end OrdSet

structure OrdMap (κ ν : Type*) [LT κ] where
  keys : OrdSet κ
  get? : κ → Option ν
  mem_keys : ∀ k, k ∈ keys ↔ (get? k).isSome

namespace OrdMap

variable {κ ν : Type*} [LinearOrder κ] {m : OrdMap κ ν}

theorem mem_keys_of_get? {k : κ} {v : ν} (h : m.get? k = some v) : k ∈ m.keys :=
  (m.mem_keys k).2 (by rw [h]; rfl)

def empty : OrdMap κ ν := ⟨OrdSet.empty, fun _ => none, by simp⟩

@[simp] theorem get?_empty (k : κ) : (empty : OrdMap κ ν).get? k = none := rfl

/-- The map sending every element of a set to the same value. -/
def const (s : OrdSet κ) (v : ν) : OrdMap κ ν :=
  ⟨s, fun k => if k ∈ s then some v else none, fun k => by by_cases h : k ∈ s <;> simp [h]⟩

@[simp] theorem get?_const (s : OrdSet κ) (v : ν) (k : κ) :
    (const s v).get? k = if k ∈ s then some v else none := rfl

def insert (k : κ) (v : ν) (m : OrdMap κ ν) : OrdMap κ ν :=
  ⟨m.keys.insert k, Function.update m.get? k (some v), fun k' => by
    by_cases h : k' = k
    · subst h; simp
    · simp [h, m.mem_keys]⟩

theorem get?_insert (k k' : κ) (v : ν) (m : OrdMap κ ν) :
    (m.insert k v).get? k' = if k' = k then some v else m.get? k' := by
  by_cases h : k' = k
  · subst h; simp [insert]
  · simp [insert, h]

@[ext] theorem ext {m m' : OrdMap κ ν} (h : ∀ k, m.get? k = m'.get? k) : m = m' := by
  have hget : m.get? = m'.get? := funext h
  have hkeys : m.keys = m'.keys := by
    ext k
    rw [m.mem_keys, m'.mem_keys, hget]
  cases m
  cases m'
  cases hget
  cases hkeys
  rfl

def isEmpty (m : OrdMap κ ν) : Bool := m.keys.isEmpty

theorem isEmpty_iff : m.isEmpty = true ↔ m = empty := by
  constructor
  · intro h
    ext k : 1
    have hk : ¬(m.get? k).isSome := by
      rw [← m.mem_keys]
      exact OrdSet.isEmpty_iff.1 h k
    exact not_isSome_iff_eq_none.1 hk
  · rintro rfl
    rfl

def values (m : OrdMap κ ν) : List ν := m.keys.toList.filterMap m.get?

def entries (m : OrdMap κ ν) : List (κ × ν) :=
  m.keys.toList.filterMap fun k => (m.get? k).map fun v => (k, v)

theorem mem_entries {k : κ} {v : ν} : (k, v) ∈ m.entries ↔ m.get? k = some v := by
  rw [entries, mem_filterMap]
  constructor
  · rintro ⟨k', -, h⟩
    rcases hk' : m.get? k' with _ | v'
    · simp [hk'] at h
    · simp only [hk', map_some, some.injEq, Prod.mk.injEq] at h
      rw [← h.1, hk', h.2]
  · exact fun h => ⟨k, mem_keys_of_get? h, by rw [h]; rfl⟩

theorem mem_values {v : ν} : v ∈ m.values ↔ ∃ k, m.get? k = some v := by
  rw [values, mem_filterMap]
  constructor
  · rintro ⟨k, -, h⟩
    exact ⟨k, h⟩
  · rintro ⟨k, h⟩
    exact ⟨k, mem_keys_of_get? h, h⟩

theorem get?_foldl_insert (entries : List (κ × ν)) (m : OrdMap κ ν) (k : κ) :
    (entries.foldl (fun m entry => m.insert entry.1 entry.2) m).get? k =
      ((entries.reverse.find? fun entry => entry.1 = k).map Prod.snd).or (m.get? k) := by
  induction entries generalizing m with
  | nil => rfl
  | cons entry entries ih =>
    rw [foldl_cons, ih, get?_insert, reverse_cons, find?_append, map_or, Option.or_assoc]
    congr 1
    by_cases h : k = entry.1
    · simp [h]
    · simp [h, Ne.symm h]

theorem isSome_get?_foldl_insert (entries : List (κ × ν)) (m : OrdMap κ ν) (k : κ) :
    ((entries.foldl (fun m entry => m.insert entry.1 entry.2) m).get? k).isSome = true ↔
      (∃ v, (k, v) ∈ entries) ∨ (m.get? k).isSome = true := by
  rw [get?_foldl_insert, isSome_or, Bool.or_eq_true, isSome_map, find?_isSome]
  simp

def mapValues {ν' : Type*} (f : ν → ν') (m : OrdMap κ ν) : OrdMap κ ν' :=
  ⟨m.keys, fun k => (m.get? k).map f, fun k => by rw [m.mem_keys, isSome_map]⟩

@[simp] theorem get?_mapValues {ν' : Type*} (f : ν → ν') (m : OrdMap κ ν) (k : κ) :
    (m.mapValues f).get? k = (m.get? k).map f := rfl

/-! ### Counting -/

/-- Count one more occurrence of a key (`*entry(k).or_default() += 1`). -/
def bump (m : OrdMap κ ℕ) (k : κ) : OrdMap κ ℕ := m.insert k ((m.get? k).getD 0 + 1)

def tally (m : OrdMap κ ℕ) (sets : List (OrdSet κ)) : OrdMap κ ℕ :=
  sets.foldl (fun m set => set.toList.foldl bump m) m

theorem get?_foldl_bump {l : List κ} (hl : l.Nodup) (m : OrdMap κ ℕ) (k : κ) :
    (l.foldl bump m).get? k = if k ∈ l then some ((m.get? k).getD 0 + 1) else m.get? k := by
  induction l generalizing m with
  | nil => simp
  | cons a l ih =>
    obtain ⟨ha, hl⟩ := nodup_cons.1 hl
    rw [foldl_cons, ih hl, bump, get?_insert]
    by_cases hka : k = a
    · subst hka
      simp [ha]
    · simp [hka]

theorem get?_tally (m : OrdMap κ ℕ) (sets : List (OrdSet κ)) (k : κ) : (m.tally sets).get? k =
      if sets.countP (fun set => decide (k ∈ set)) = 0 then m.get? k
      else some ((m.get? k).getD 0 + sets.countP fun set => decide (k ∈ set)) := by
  unfold tally
  induction sets generalizing m with
  | nil => simp
  | cons set sets ih =>
    rw [foldl_cons, ih, get?_foldl_bump set.nodup, countP_cons]
    by_cases hk : k ∈ set
    · simp only [OrdSet.mem_toList, hk, if_true, decide_true, getD_some,
        Nat.add_one_ne_zero, if_false]
      split_ifs with h0
      · rw [h0]
      · congr 1
        omega
    · simp [hk]

end OrdMap

end Lib
