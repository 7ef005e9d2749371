import Gadgetron.Lib.Exec
import Gadgetron.Lib.Table

/-!
# Statements that write rows

An `INSERT` of several rows, with or without `ON CONFLICT .. DO UPDATE`: each row is checked and
then takes its place, and a statement that breaks a constraint writes nothing.
-/

namespace Lib

open List Except

inductive Violation
  | check
  | primaryKey
  | cardinality
  | uniqueIndex
  | foreignKey
  | noRow
  deriving DecidableEq

def Violation.ofKey : Violation → Bool
  | .primaryKey | .cardinality | .uniqueIndex | .foreignKey => true
  | .check | .noRow => false

namespace Table

variable {ρ κ : Type} {key : ρ → κ} [DecidableEq κ]

/-- One row of an `INSERT`, or of an upsert, that has written rows with the given keys. -/
def writeRow (checks : ρ → Bool) (upsert : Bool) (written : List κ) (t : Table key) (r : ρ) :
    Except Violation (Table key) :=
  if !checks r then .error .check
  else
    match t.insert r with
    | some t' => .ok t'
    | none =>
      if !upsert then .error .primaryKey
      else if key r ∈ written then .error .cardinality
      else .ok (t.put r)

def writeRows (checks : ρ → Bool) (upsert : Bool) (written : List κ) (t : Table key) :
    List ρ → Except Violation (Table key)
  | [] => .ok t
  | r :: rs => do
    let t' ← writeRow checks upsert written t r
    writeRows checks upsert (key r :: written) t' rs

/-- The statement; the references of its rows are checked at its end, and none is made for no
rows. -/
def write (checks references : ρ → Bool) (upsert : Bool) (t : Table key) (rs : List ρ) :
    Except Violation (Table key) :=
  if rs.isEmpty then .ok t
  else do
    let t' ← writeRows checks upsert [] t rs
    if rs.all references then .ok t' else .error .foreignKey

variable {checks references : ρ → Bool} {upsert : Bool} {written : List κ} {t t' : Table key}
  {r : ρ} {rs : List ρ}

theorem writeRow_eq_ok (h : writeRow checks upsert written t r = .ok t') : t' = t.upsert r := by
  revert h
  fun_cases writeRow checks upsert written t r with
  | case1 | case3 | case4 =>
    intro h
    cases h
  | case2 _ t₁ hinsert =>
    intro h
    rw [← ok.inj h, Table.upsert, hinsert, Option.getD_some]
  | case5 _ hinsert =>
    intro h
    rw [← ok.inj h, Table.upsert, hinsert, Option.getD_none]

theorem mem_writeRows (hkeys : (rs.map key).Nodup)
    (h : writeRows checks upsert written t rs = .ok t') {x : ρ} :
    x ∈ t' ↔ x ∈ rs ∨ x ∈ t ∧ key x ∉ rs.map key := by
  induction rs generalizing t written with
  | nil =>
    cases h
    simp
  | cons r rs ih =>
    obtain ⟨t₁, hfirst, hrest⟩ := bind_eq_ok.1 h
    rw [map_cons, nodup_cons] at hkeys
    rw [ih hkeys.2 hrest, writeRow_eq_ok hfirst, mem_upsert, mem_cons, map_cons, mem_cons, not_or]
    constructor
    · rintro (hx | ⟨rfl | ⟨hx, hne⟩, hnot⟩)
      · exact .inl (.inr hx)
      · exact .inl (.inl rfl)
      · exact .inr ⟨hx, hne, hnot⟩
    · rintro ((rfl | hx) | ⟨hx, hne, hnot⟩)
      · exact .inr ⟨.inl rfl, hkeys.1⟩
      · exact .inl hx
      · exact .inr ⟨.inr ⟨hx, hne⟩, hnot⟩

variable {v : Violation}

theorem writeRow_eq_error (hnew : upsert = true ∨ ∀ x ∈ t, key x ≠ key r)
    (hkey : key r ∉ written) (h : writeRow checks upsert written t r = .error v) : v = .check := by
  revert h
  fun_cases writeRow checks upsert written t r with
  | case1 => exact fun h => (error.inj h).symm
  | case2 | case5 => exact nofun
  | case3 _ hinsert hplain =>
    obtain ⟨old, hold, heq⟩ := insert_eq_none.1 hinsert
    rcases hnew with rfl | hnew
    · cases hplain
    · exact absurd heq (hnew old hold)
  | case4 _ _ _ hmem => exact absurd hmem hkey

theorem writeRows_eq_error (hkeys : (rs.map key).Nodup)
    (hnew : upsert = true ∨ ∀ x ∈ t, key x ∉ rs.map key) (hwritten : ∀ k ∈ rs.map key, k ∉ written)
    (h : writeRows checks upsert written t rs = .error v) : v = .check := by
  induction rs generalizing t written with
  | nil => cases h
  | cons r rs ih =>
    rw [map_cons, nodup_cons] at hkeys
    rw [map_cons, forall_mem_cons] at hwritten
    unfold writeRows at h
    cases hfirst : writeRow checks upsert written t r with
    | error e =>
      rw [hfirst] at h
      obtain rfl := error.inj h
      apply writeRow_eq_error _ hwritten.1 hfirst
      exact hnew.imp id fun hnew x hx heq => hnew x hx (heq ▸ mem_cons_self)
    | ok t₁ =>
      rw [hfirst] at h
      refine ih hkeys.2 (hnew.imp id fun hnew x hx hmem => ?_) (fun k hk hmem => ?_) h
      · rw [writeRow_eq_ok hfirst, mem_upsert] at hx
        rcases hx with rfl | ⟨hx, -⟩
        · exact hkeys.1 hmem
        · exact hnew x hx (mem_cons_of_mem _ hmem)
      · rcases mem_cons.1 hmem with rfl | hmem
        · exact hkeys.1 hk
        · exact hwritten.2 k hk hmem

theorem mem_write (hkeys : (rs.map key).Nodup) (h : t.write checks references upsert rs = .ok t')
    {x : ρ} : x ∈ t' ↔ x ∈ rs ∨ x ∈ t ∧ key x ∉ rs.map key := by
  unfold write at h
  by_cases hempty : rs.isEmpty = true
  · rw [if_pos hempty] at h
    cases h
    rw [List.isEmpty_iff.1 hempty]
    simp
  · rw [if_neg hempty] at h
    obtain ⟨t₁, hrows, h⟩ := bind_eq_ok.1 h
    split_ifs at h
    rw [← ok.inj h, mem_writeRows hkeys hrows]

theorem write_eq_error (hkeys : (rs.map key).Nodup)
    (hnew : upsert = true ∨ ∀ x ∈ t, key x ∉ rs.map key) (hrefs : ∀ r ∈ rs, references r = true)
    (h : t.write checks references upsert rs = .error v) : v = .check := by
  unfold write at h
  by_cases hempty : rs.isEmpty = true
  · rw [if_pos hempty] at h
    cases h
  · rw [if_neg hempty] at h
    cases hrows : writeRows checks upsert [] t rs with
    | error e =>
      rw [hrows] at h
      obtain rfl := error.inj h
      exact writeRows_eq_error hkeys hnew (by simp) hrows
    | ok t₁ =>
      rw [hrows] at h
      change (if rs.all references then Except.ok t₁ else Except.error Violation.foreignKey) =
        Except.error v at h
      rw [if_pos (List.all_eq_true.2 hrefs)] at h
      cases h

end Table

end Lib
