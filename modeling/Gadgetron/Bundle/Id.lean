import Mathlib.Data.String.Basic
import Mathlib.Data.List.Infix

/-!
# Identifiers of the bundle SDK

The string newtypes `BundleId`, `LocalId` and `CapabilityId`. A value carries the fact that its
validator accepted it.
-/

namespace Gadgetron.Bundle

inductive BundleSdkError
  | invalidIdentifier (kind value reason : String)
  | invalidManifest (field reason : String)
  deriving DecidableEq

def maxIdLen : ℕ := 64

def maxCapabilityIdLen : ℕ := 160

def validateKebabId (value : String) : Except String Unit :=
  if value.toList.isEmpty || maxIdLen < value.utf8ByteSize then
    .error "must contain 1-64 ASCII characters"
  else if !value.toList.all fun c => decide (c.toNat < 128) then
    .error "must be ASCII lowercase kebab-case"
  else if value.toList.head? == some '-' || value.toList.getLast? == some '-' ||
      decide (['-', '-'] <:+: value.toList) then
    .error "must not start/end with '-' or contain consecutive '-'"
  else if !value.toList.all fun c => c.isLower || c.isDigit || c == '-' then
    .error "allowed characters are [a-z0-9-]"
  else .ok ()

def validateLegacyBundleId (value : String) : Except String Unit :=
  if value.toList.isEmpty || maxIdLen < value.utf8ByteSize then
    .error "must contain 1-64 ASCII characters"
  else if !value.toList.all fun c => c.isAlphanum || c == '-' || c == '_' then
    .error "allowed characters are [a-zA-Z0-9_-]"
  else .ok ()

def validateCapabilityId (value : String) : Except String Unit :=
  if value.toList.isEmpty || maxCapabilityIdLen < value.utf8ByteSize then
    .error "must contain 1-160 ASCII characters"
  else
    let parts := (value.toList.splitOn '.').map String.ofList
    if parts.length < 2 || parts.any fun part => !(validateKebabId part).isOk then
      .error "must contain at least two lowercase kebab-case segments separated by '.'"
    else .ok ()

def StringNewtype (validator : String → Except String Unit) : Type :=
  {value : String // (validator value).isOk = true}

namespace StringNewtype

variable {validator : String → Except String Unit}

instance : LinearOrder (StringNewtype validator) :=
  inferInstanceAs (LinearOrder {value : String // (validator value).isOk = true})

/-- The text of an identifier (`as_str`). -/
def asStr (id : StringNewtype validator) : String := id.1

def new (kind value : String) : Except BundleSdkError (StringNewtype validator) :=
  match h : validator value with
  | .ok _ => .ok ⟨value, by rw [h]; rfl⟩
  | .error reason => .error (.invalidIdentifier kind value reason)

end StringNewtype

abbrev BundleId := StringNewtype validateLegacyBundleId

abbrev LocalId := StringNewtype validateKebabId

abbrev CapabilityId := StringNewtype validateCapabilityId

theorem validateLegacyBundleId_of_kebab {value : String} (h : (validateKebabId value).isOk = true) :
    (validateLegacyBundleId value).isOk = true := by
  unfold validateKebabId at h
  unfold validateLegacyBundleId
  split_ifs at h with hlen hascii hdash hchars
  iterate 4 · simp [Except.isOk, Except.toBool] at h
  · rw [if_neg hlen, if_neg]
    · rfl
    · simp only [Bool.not_eq_true', Bool.not_eq_false, List.all_eq_true,
        Bool.or_eq_true] at hchars ⊢
      intro c hc
      rcases hchars c hc with (hlow | hdig) | hd
      · have halnum : c.isAlphanum = true := by
          show ((c.isUpper || c.isLower) || c.isDigit) = true
          rw [hlow, Bool.or_true, Bool.true_or]
        exact Or.inl (Or.inl halnum)
      · have halnum : c.isAlphanum = true := by
          show (c.isAlpha || c.isDigit) = true
          rw [hdig, Bool.or_true]
        exact Or.inl (Or.inl halnum)
      · exact Or.inl (Or.inr hd)

def BundleId.new (value : String) : Except BundleSdkError BundleId :=
  match h : validateKebabId value with
  | .ok _ => .ok ⟨value, validateLegacyBundleId_of_kebab (by rw [h]; rfl)⟩
  | .error reason => .error (.invalidIdentifier "Bundle id" value reason)

def LocalId.new (value : String) : Except BundleSdkError LocalId :=
  StringNewtype.new "local id" value

end Gadgetron.Bundle
