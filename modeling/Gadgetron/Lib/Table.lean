import Gadgetron.Lib.SortBy
import Mathlib.Algebra.GroupWithZero.Nat
import Mathlib.Data.List.Nodup

/-!
# Tables

A table is a list of rows that no two of which share the primary key.  A row is inserted if its key
is new; an update rewrites rows but not their keys; a query returns the first of the rows that it
selects.
-/

namespace Lib

open List Option

structure Table {ρ κ : Type*} (key : ρ → κ) where
  rows : List ρ
  nodup : (rows.map key).Nodup

namespace Table

variable {ρ κ : Type*} {key : ρ → κ}

instance : Membership ρ (Table key) := ⟨fun t r => r ∈ t.rows⟩

variable {t : Table key} {r : ρ}

theorem mem_iff : r ∈ t ↔ r ∈ t.rows := Iff.rfl

section

variable {t : Table key} {p : ρ → Prop} [DecidablePred p]

instance : Decidable (∃ r ∈ t, p r) := inferInstanceAs (Decidable (∃ r ∈ t.rows, p r))

instance : Decidable (∀ r ∈ t, p r) := inferInstanceAs (Decidable (∀ r ∈ t.rows, p r))

end

def empty : Table key := ⟨[], nodup_nil⟩

theorem not_mem_empty (r : ρ) : r ∉ (empty : Table key) := not_mem_nil

def update (t : Table key) (f : ρ → ρ) (hf : ∀ r, key (f r) = key r) : Table key where
  rows := t.rows.map f
  nodup := by
    rw [List.map_map, show key ∘ f = key from funext hf]
    exact t.nodup

theorem eq_of_key {r r' : ρ} (hr : r ∈ t) (hr' : r' ∈ t) (h : key r = key r') :
    r = r' :=
  inj_on_of_nodup_map t.nodup hr hr' h

variable {f : ρ → ρ} {hf : ∀ r, key (f r) = key r}

theorem mem_update :
    r ∈ t.update f hf ↔ ∃ old ∈ t, f old = r :=
  List.mem_map

/-- `UPDATE` of the rows that satisfy the `WHERE`. -/
def updateWhere (t : Table key) (p : ρ → Bool) (f : ρ → ρ)
    (hf : ∀ r, key (f r) = key r := by intro _; rfl) : Table key :=
  t.update (fun r => if p r then f r else r) fun r => by
    split_ifs
    · exact hf r
    · rfl

variable {p : ρ → Bool}

theorem mem_updateWhere :
    r ∈ t.updateWhere p f hf ↔ ∃ old ∈ t, (if p old then f old else old) = r :=
  mem_update

theorem exists_mem_updateWhere (p : ρ → Bool) (f : ρ → ρ)
    (hf : ∀ r, key (f r) = key r) (hr : r ∈ t) :
    ∃ r' ∈ t.updateWhere p f hf, r' = r ∨ r' = f r := by
  refine ⟨_, mem_updateWhere.2 ⟨r, hr, rfl⟩, ?_⟩
  split_ifs
  · exact .inr rfl
  · exact .inl rfl

def first (t : Table key) (cmp : ρ → ρ → Ordering) (p : ρ → Bool) : Option ρ :=
  (sortBy cmp (t.rows.filter p)).head?

variable {cmp : ρ → ρ → Ordering}

theorem first_eq_some (h : t.first cmp p = some r) : r ∈ t ∧ p r := by
  have hmem : r ∈ t.rows.filter p := mem_sortBy.1 (mem_of_mem_head? h)
  exact List.mem_filter.1 hmem

theorem first_eq_none : t.first cmp p = none ↔ ∀ r ∈ t, p r = false := by
  rw [first, head?_eq_none_iff, eq_nil_iff_forall_not_mem]
  simp [mem_sortBy, mem_iff]

variable [DecidableEq κ]

def get (t : Table key) (k : κ) : Option ρ := t.rows.find? fun r => key r = k

def put (t : Table key) (r : ρ) : Table key :=
  t.update (fun x => if key x = key r then r else x) fun x => by
    split_ifs with h
    · exact h.symm
    · rfl

/-- `INSERT` of a row, unless its key is taken. -/
def insert (t : Table key) (r : ρ) : Option (Table key) :=
  if h : key r ∈ t.rows.map key then none
  else
    some
      { rows := t.rows ++ [r]
        nodup := by
          rw [map_append, map_singleton]
          exact t.nodup.append (nodup_singleton _) (by simpa using h) }

variable {t t' : Table key} {r old : ρ} {k : κ}

theorem get_eq_some : t.get k = some r ↔ r ∈ t ∧ key r = k := by
  constructor
  · intro h
    exact ⟨mem_of_find?_eq_some h, by simpa using find?_some h⟩
  · rintro ⟨hr, rfl⟩
    obtain ⟨r', hr'⟩ : ∃ r', t.get (key r) = some r' :=
      isSome_iff_exists.1 (find?_isSome.2 ⟨r, hr, by simp⟩)
    have hkey : key r' = key r := by simpa using find?_some hr'
    rw [hr', eq_of_key (mem_of_find?_eq_some hr') hr hkey]

theorem get_eq_none : t.get k = none ↔ ∀ r ∈ t, key r ≠ k := by
  simp [get, mem_iff]

theorem bind_get_eq_some {α : Type*} {f : ρ → Option α} {a : α} :
    (t.get k).bind f = some a ↔ ∃ r ∈ t, key r = k ∧ f r = some a := by
  simp only [bind_eq_some_iff, get_eq_some, and_assoc]

theorem mem_of_get (h : t.get k = some r) : r ∈ t := (get_eq_some.1 h).1

theorem key_of_get (h : t.get k = some r) : key r = k := (get_eq_some.1 h).2

variable {x : ρ}

theorem mem_put (hold : old ∈ t) (hkey : key old = key r) :
    x ∈ t.put r ↔ x = r ∨ x ∈ t ∧ key x ≠ key r := by
  rw [put, mem_update]
  constructor
  · rintro ⟨y, hy, rfl⟩
    split_ifs with h
    · exact .inl rfl
    · exact .inr ⟨hy, h⟩
  · rintro (rfl | ⟨hx, hne⟩)
    · exact ⟨old, hold, if_pos hkey⟩
    · exact ⟨x, hx, if_neg hne⟩

theorem of_mem_put (h : x ∈ t.put r) : x = r ∨ x ∈ t := by
  rw [put, mem_update] at h
  obtain ⟨y, hy, rfl⟩ := h
  split_ifs
  · exact .inl rfl
  · exact .inr hy

theorem mem_put_of_ne (hx : x ∈ t) (hne : key x ≠ key r) : x ∈ t.put r := by
  rw [put, mem_update]
  exact ⟨x, hx, if_neg hne⟩

section

variable (hold : old ∈ t) (hkey : key old = key r)
include hold hkey

theorem exists_mem_put {P : ρ → ρ → Prop} (hr : P old r)
    (hrefl : ∀ x, P x x) (hx : x ∈ t) : ∃ x' ∈ t.put r, P x x' := by
  by_cases hsame : key x = key r
  · rw [eq_of_key hx hold (hsame.trans hkey.symm)]
    exact ⟨r, (mem_put hold hkey).2 (.inl rfl), hr⟩
  · exact ⟨x, (mem_put hold hkey).2 (.inr ⟨hx, hsame⟩), hrefl x⟩

theorem exists_put_rows :
    ∃ l₁ l₂, t.rows = l₁ ++ old :: l₂ ∧ (t.put r).rows = l₁ ++ r :: l₂ := by
  obtain ⟨l₁, l₂, hrows⟩ := append_of_mem (mem_iff.1 hold)
  have hother : ∀ x ∈ l₁ ++ l₂, key x ≠ key r := by
    have hnodup : (key old :: (l₁ ++ l₂).map key).Nodup := by
      have := t.nodup
      rw [hrows] at this
      simpa using (perm_middle.map key).nodup_iff.1 this
    intro x hx h
    exact (nodup_cons.1 hnodup).1 (List.mem_map.2 ⟨x, hx, h.trans hkey.symm⟩)
  have hsame : ∀ l : List ρ, (∀ x ∈ l, key x ≠ key r) →
      l.map (fun x => if key x = key r then r else x) = l := by
    intro l hl
    exact (map_congr_left fun x hx => if_neg (hl x hx)).trans (List.map_id l)
  refine ⟨l₁, l₂, hrows, ?_⟩
  rw [show (t.put r).rows = t.rows.map fun x => if key x = key r then r else x from rfl, hrows,
    map_append, map_cons, if_pos hkey,
    hsame l₁ fun x hx => hother x (mem_append_left _ hx),
    hsame l₂ fun x hx => hother x (mem_append_right _ hx)]

theorem countP_put (p : ρ → Bool) :
    (t.put r).rows.countP p + (if p old then 1 else 0) =
      t.rows.countP p + (if p r then 1 else 0) := by
  obtain ⟨l₁, l₂, hrows, hput⟩ := exists_put_rows hold hkey
  rw [hput, hrows, countP_append, countP_append, countP_cons, countP_cons]
  omega

theorem sum_put (f : ρ → ℕ) :
    ((t.put r).rows.map f).sum + f old = (t.rows.map f).sum + f r := by
  obtain ⟨l₁, l₂, hrows, hput⟩ := exists_put_rows hold hkey
  simp only [hput, hrows, map_append, map_cons, sum_append, sum_cons]
  omega

end

theorem insert_eq_some : t.insert r = some t' ↔ t.get (key r) = none ∧ t'.rows = t.rows ++ [r] := by
  have hkeys : t.get (key r) = none ↔ key r ∉ t.rows.map key := by
    simp [get_eq_none, mem_iff]
  rw [insert, hkeys]
  constructor
  · intro h
    split_ifs at h with hkey
    cases h
    exact ⟨hkey, rfl⟩
  · rintro ⟨hkey, hrows⟩
    rw [dif_neg hkey]
    cases t'
    cases hrows
    rfl

theorem mem_insert (h : t.insert r = some t') : x ∈ t' ↔ x ∈ t ∨ x = r := by
  rw [mem_iff, (insert_eq_some.1 h).2, mem_append, mem_singleton, mem_iff]

theorem countP_insert (h : t.insert r = some t') (p : ρ → Bool) :
    t'.rows.countP p = t.rows.countP p + (if p r then 1 else 0) := by
  rw [(insert_eq_some.1 h).2, countP_append, countP_singleton]

/-! ### Upserts and deletions -/

/-- `INSERT` of a row, in place of the one with its key if there is one. -/
def upsert (t : Table key) (r : ρ) : Table key := (t.insert r).getD (t.put r)

def deleteWhere (t : Table key) (p : ρ → Bool) : Table key where
  rows := t.rows.filter fun r => !p r
  nodup := t.nodup.sublist (filter_sublist.map key)

theorem insert_eq_none : t.insert r = none ↔ ∃ old ∈ t, key old = key r := by
  rw [insert]
  simp [mem_iff]

theorem mem_upsert : x ∈ t.upsert r ↔ x = r ∨ x ∈ t ∧ key x ≠ key r := by
  rw [upsert]
  cases h : t.insert r with
  | none =>
    obtain ⟨old, hold, hkey⟩ := insert_eq_none.1 h
    exact mem_put hold hkey
  | some t' =>
    have hnew := get_eq_none.1 (insert_eq_some.1 h).1
    rw [getD_some, mem_insert h]
    constructor
    · rintro (hx | rfl)
      · exact .inr ⟨hx, hnew x hx⟩
      · exact .inl rfl
    · rintro (rfl | ⟨hx, -⟩)
      · exact .inr rfl
      · exact .inl hx

omit [DecidableEq κ] in
theorem mem_deleteWhere : x ∈ t.deleteWhere p ↔ x ∈ t ∧ p x = false := by
  simp [mem_iff, deleteWhere]

theorem upsert_rows_perm (t : Table key) (r : ρ) :
    (t.upsert r).rows.Perm (r :: t.rows.filter fun x => key x ≠ key r) := by
  have hnodup : ∀ t : Table key, t.rows.Nodup := fun t => t.nodup.of_map key
  rw [perm_ext_iff_of_nodup (hnodup _)]
  · intro x
    rw [← mem_iff, mem_upsert, mem_iff, mem_cons, List.mem_filter, decide_eq_true_eq]
  · exact nodup_cons.2 ⟨by simp, (hnodup t).filter _⟩

theorem get_upsert : (t.upsert r).get k = if key r = k then some r else t.get k := by
  split_ifs with h
  · exact get_eq_some.2 ⟨mem_upsert.2 (.inl rfl), h⟩
  · ext x
    rw [get_eq_some, get_eq_some, mem_upsert]
    constructor
    · rintro ⟨rfl | ⟨hx, -⟩, hkey⟩
      · exact absurd hkey h
      · exact ⟨hx, hkey⟩
    · rintro ⟨hx, rfl⟩
      exact ⟨.inr ⟨hx, Ne.symm h⟩, rfl⟩

theorem get_updateWhere :
    (t.updateWhere p f hf).get k = (t.get k).map fun r => if p r then f r else r := by
  have hkey : ∀ r, key (if p r then f r else r) = key r := by
    intro r
    split_ifs
    · exact hf r
    · rfl
  ext x
  rw [get_eq_some, mem_updateWhere, map_eq_some_iff]
  constructor
  · rintro ⟨⟨old, hold, rfl⟩, rfl⟩
    exact ⟨old, get_eq_some.2 ⟨hold, (hkey old).symm⟩, rfl⟩
  · rintro ⟨old, hold, rfl⟩
    exact ⟨⟨old, mem_of_get hold, rfl⟩, (hkey old).trans (key_of_get hold)⟩

theorem get_insert (h : t.insert r = some t') :
    t'.get k = if key r = k then some r else t.get k := by
  rw [← get_upsert, upsert, h, getD_some]

theorem get_put (h : t.get (key r) = some old) :
    (t.put r).get k = if key r = k then some r else t.get k := by
  have hnone : t.insert r = none := insert_eq_none.2 ⟨old, mem_of_get h, key_of_get h⟩
  rw [← get_upsert, upsert, hnone, getD_none]

theorem get_foldl_upsert (rs : List ρ) (t : Table key) (k : κ) :
    (∃ r ∈ rs, key r = k ∧ (rs.foldl upsert t).get k = some r) ∨
      (∀ r ∈ rs, key r ≠ k) ∧ (rs.foldl upsert t).get k = t.get k := by
  induction rs generalizing t with
  | nil => exact .inr ⟨nofun, rfl⟩
  | cons a rs ih =>
    rw [foldl_cons]
    rcases ih (t.upsert a) with ⟨r, hr, hkey, hget⟩ | ⟨hnone, hget⟩
    · exact .inl ⟨r, mem_cons_of_mem a hr, hkey, hget⟩
    · rw [get_upsert] at hget
      split_ifs at hget with ha
      · exact .inl ⟨a, mem_cons_self, ha, hget⟩
      · exact .inr ⟨forall_mem_cons.2 ⟨ha, hnone⟩, hget⟩

theorem of_mem_foldl_upsert {rs : List ρ} (h : x ∈ rs.foldl upsert t) : x ∈ rs ∨ x ∈ t := by
  induction rs generalizing t with
  | nil => exact .inr h
  | cons a rs ih =>
    rcases ih h with hx | hx
    · exact .inl (mem_cons_of_mem a hx)
    · rcases mem_upsert.1 hx with rfl | ⟨hx, -⟩
      · exact .inl mem_cons_self
      · exact .inr hx

theorem get_deleteWhere : (t.deleteWhere p).get k = (t.get k).filter (!p ·) := by
  ext x
  rw [filter_eq_some_iff, get_eq_some, get_eq_some, mem_deleteWhere]
  simp
  tauto

theorem nodup_of_pair {α β : Type*} [DecidableEq α] {key : ρ → α × β} (t : Table key) (a : α) :
    ((t.rows.filter fun r => (key r).1 = a).map fun r => (key r).2).Nodup := by
  refine Nodup.of_map (fun b => (a, b)) ?_
  rw [List.map_map]
  convert t.nodup.sublist ((filter_sublist (p := fun r => decide ((key r).1 = a))).map key) using 1
  refine map_congr_left fun r hr => ?_
  rw [Function.comp_apply, ← show (key r).1 = a by simpa using (List.mem_filter.1 hr).2]

end Table

/-! ## Indices -/

/-- The entry for a key in a map that is collected from a list: the last one with the key. -/
def indexBy {α κ : Type*} [DecidableEq κ] (key : α → κ) (l : List α) (k : κ) : Option α :=
  l.reverse.find? fun a => key a = k

variable {α κ : Type*} {key : α → κ}

theorem indexBy_eq_none [DecidableEq κ] {l : List α} {k : κ} :
    indexBy key l k = none ↔ ∀ a ∈ l, key a ≠ k := by
  simp [indexBy]

theorem of_indexBy_eq_some [DecidableEq κ] {l : List α} {k : κ} {a : α}
    (h : indexBy key l k = some a) : a ∈ l ∧ key a = k :=
  ⟨mem_reverse.1 (mem_of_find?_eq_some h), by simpa using find?_some h⟩

theorem indexBy_of_unique [DecidableEq κ] {l : List α} {a : α}
    (ha : a ∈ l) (hunique : ∀ b ∈ l, key b = key a → b = a) : indexBy key l (key a) = some a := by
  cases h : indexBy key l (key a) with
  | none => exact absurd rfl (indexBy_eq_none.1 h a ha)
  | some b =>
    obtain ⟨hb, hkey⟩ := of_indexBy_eq_some h
    rw [hunique b hb hkey]

end Lib
