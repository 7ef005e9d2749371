import Mathlib.Data.BitVec
import Mathlib.Tactic.Set

/-!
# Identifiers and scopes

The types that all components share: UUIDs, the scopes of a caller and who it is.
-/

namespace Gadgetron

open List

abbrev Uuid := BitVec 128

inductive Scope
  | openAiCompat
  | management
  | xaasAdmin
  deriving DecidableEq

/-- `Scope::as_str`, which is also how a scope is displayed. -/
def Scope.asStr : Scope → String
  | .openAiCompat => "openai_compat"
  | .management => "management"
  | .xaasAdmin => "xaas_admin"

theorem Scope.asStr_injective : Function.Injective Scope.asStr := by
  intro scope scope' h
  cases scope <;> cases scope' <;> first | rfl | exact absurd h (by decide)

structure AuthenticatedContext where
  (apiKeyId tenantId : Uuid)
  realUserId : Option Uuid

/-- The user, or the key for keys older than users: `real_user_id.unwrap_or(api_key_id)`. -/
def AuthenticatedContext.userId (context : AuthenticatedContext) : Uuid :=
  context.realUserId.getD context.apiKeyId

def Uuid.toText (id : Uuid) : String :=
  let digits := (List.range 32).map fun i => (id.toNat / 16 ^ (31 - i) % 16).digitChar
  let group (start len : ℕ) := String.ofList ((digits.drop start).take len)
  String.intercalate "-" [group 0 8, group 8 4, group 12 4, group 16 4, group 20 12]

/-! ## Reading a UUID -/

def hexValue (c : Char) : ℕ := if c.isDigit then c.toNat - '0'.toNat else c.toNat - 'a'.toNat + 10

def hexNumber (digits : List Char) : ℕ := digits.foldl (fun n c => n * 16 + hexValue c) 0

theorem hexNumber_append (digits : List Char) (c : Char) :
    hexNumber (digits ++ [c]) = hexNumber digits * 16 + hexValue c := by
  rw [hexNumber, foldl_append, foldl_cons, foldl_nil, hexNumber]

def Uuid.ofText (text : String) : Option Uuid :=
  let id : Uuid := .ofNat 128 (hexNumber (text.toList.filter (· ≠ '-')))
  if id.toText = text then some id else none

theorem hexValue_digitChar {d : ℕ} (h : d < 16) : hexValue d.digitChar = d := by
  decide +revert

theorem digitChar_ne_dash {d : ℕ} (h : d < 16) : d.digitChar ≠ '-' := by
  decide +revert

theorem hexNumber_digits (n k : ℕ) (hk : k ≤ 32) :
    hexNumber ((List.range k).map fun i => (n / 16 ^ (31 - i) % 16).digitChar) =
      n / 16 ^ (32 - k) % 16 ^ k := by
  induction k with
  | zero => simp [hexNumber, Nat.mod_one]
  | succ k ih =>
    have hrest : n / 16 ^ (32 - k) = n / 16 ^ (31 - k) / 16 := by
      rw [Nat.div_div_eq_div_mul, ← pow_succ, show 31 - k + 1 = 32 - k by omega]
    have hlast := hexValue_digitChar (Nat.mod_lt (n / 16 ^ (31 - k)) (show 0 < 16 by omega))
    rw [range_succ, map_append, map_singleton, hexNumber_append, ih (by omega),
      hlast, hrest, show 32 - (k + 1) = 31 - k by omega, pow_succ' 16 k, Nat.mod_mul]
    omega

theorem Uuid.filter_toText (id : Uuid) : id.toText.toList.filter (· ≠ '-') =
      (List.range 32).map fun i => (id.toNat / 16 ^ (31 - i) % 16).digitChar := by
  set digits := (List.range 32).map fun i => (id.toNat / 16 ^ (31 - i) % 16).digitChar with hdigits
  have hkeep (start len : ℕ) :
      ((digits.drop start).take len).filter (· ≠ '-') = (digits.drop start).take len := by
    rw [filter_eq_self]
    intro c hc
    obtain ⟨i, -, rfl⟩ := List.mem_map.1 (mem_of_mem_drop (mem_of_mem_take hc))
    exact decide_eq_true (digitChar_ne_dash (Nat.mod_lt _ (by omega)))
  rw [Uuid.toText, ← hdigits]
  simp only [String.toList_intercalate, map_cons, map_nil, String.toList_ofList,
    List.intercalate, List.intersperse, flatten_cons, flatten_nil, filter_append,
    hkeep]
  rw [show "-".toList.filter (fun c => decide (c ≠ '-')) = [] by decide, hdigits]
  rfl

theorem Uuid.ofText_toText (id : Uuid) : Uuid.ofText id.toText = some id := by
  have hnumber : hexNumber (id.toText.toList.filter (· ≠ '-')) = id.toNat := by
    rw [Uuid.filter_toText, hexNumber_digits _ _ le_rfl, Nat.sub_self, pow_zero, Nat.div_one]
    exact Nat.mod_eq_of_lt (by have := id.isLt; omega)
  simp only [Uuid.ofText, hnumber, BitVec.ofNat_toNat, BitVec.setWidth_eq, if_true]

end Gadgetron
