import Gadgetron.Lib.Regex
import Gadgetron.Lib.Text

/-!
# Redaction of standard error

`redact_stderr`: the matches of six patterns of secrets are replaced by markers, one pattern after
the other.  The `regex` crate is a parameter: an engine may choose any match at a place.
-/

namespace Gadgetron.Penny.Redact

open Lib

/-- The characters that `(?i)` takes for a small letter. -/
def foldsTo (c d : Char) : Bool :=
  d == c || d == c.toUpper || (c == 's' && d == 'ſ') || (c == 'k' && d == '\u212a')

def literal (text : String) : Regex := text.toList.foldr (fun c r => .seq (.one (· == c)) r) .empty

/-- A literal under `(?i)`, written with small letters. -/
def literalIgnoreCase (text : String) : Regex :=
  text.toList.foldr (fun c r => .seq (.one (foldsTo c)) r) .empty

def between (low high c : Char) : Bool := low ≤ c && c ≤ high

/-- `[a-zA-Z0-9]`. -/
def isAlphanumeric (c : Char) : Bool := between 'a' 'z' c || between 'A' 'Z' c || between '0' '9' c

/-- `[A-Za-z0-9]` under `(?i)`. -/
def isAlphanumericIgnoreCase (c : Char) : Bool := isAlphanumeric c || c == 'ſ' || c == '\u212a'

def spaces (low : ℕ) : Regex := .rep (.one isWhitespace) low none

def optional (r : Regex) : Regex := .rep r 0 (some 1)

def anthropicKey : Regex :=
  .seq (literal "sk-ant-")
    (.rep (.one fun c => isAlphanumeric c || c == '_' || c == '-') 40 (some 512))

def gadgetronKey : Regex :=
  .seq (literal "gad_") (.seq (.alt (literal "live") (literal "test"))
    (.seq (literal "_") (.rep (.one fun c => between 'a' 'f' c || between '0' '9' c) 32 (some 32))))

def bearerToken : Regex :=
  .seq (literalIgnoreCase "bearer") (.seq (spaces 1)
    (.rep (.one fun c => isAlphanumericIgnoreCase c || c == '.' || c == '_' || c == '-') 32
      (some 512)))

def genericSecret : Regex :=
  .seq (.alt
      (.seq (literalIgnoreCase "api")
        (.seq (optional (.one fun c => c == '_' || c == '-')) (literalIgnoreCase "key")))
      (.alt (literalIgnoreCase "secret") (literalIgnoreCase "token")))
    (.seq (spaces 0) (.seq (.one fun c => c == ':' || c == '=') (.seq (spaces 0)
      (.rep (.one fun c => isAlphanumericIgnoreCase c || c == '+' || c == '/') 20 (some 512)))))

def awsAccessKey : Regex :=
  .seq (literal "AKIA") (.rep (.one fun c => between '0' '9' c || between 'A' 'Z' c) 16 (some 16))

def pemHeader : Regex :=
  .seq (literal "-----BEGIN ")
    (.seq (optional (.alt (literal "RSA ") (.alt (literal "EC ") (literal "OPENSSH "))))
      (literal "PRIVATE KEY-----"))

def redactionPatterns : List (String × Regex) :=
  [("anthropic_key", anthropicKey), ("gadgetron_key", gadgetronKey),
    ("bearer_token", bearerToken), ("generic_secret", genericSecret),
    ("aws_access_key", awsAccessKey), ("pem_header", pemHeader)]

def marker (name : String) : String := "[REDACTED:" ++ name ++ "]"

def redactions : List (Regex × List Char) :=
  redactionPatterns.map fun (name, re) => (re, (marker name).toList)

def redactStderr (engine : Regex.Engine) (raw : String) : String :=
  String.ofList (Regex.replaceAll engine redactions raw.toList)

theorem guarded_redactions : Regex.Guarded '[' ']' redactions where
  avoids := by decide +kernel
  marker := by
    have hends : ∀ p ∈ redactions, p.2 = '[' :: p.2.tail.dropLast ++ [']'] := by decide +kernel
    exact fun p hp => ⟨_, hends p hp⟩
  free p hp q hq := by
    have hall : ∀ p ∈ redactions, ∀ q ∈ redactions, (q.2.tails.flatMap List.inits).all (fun w =>
        decide (w.length < p.1.minLength) || w.any fun c => p.1.avoids c) = true := by
      decide +kernel
    exact Regex.free_of_all (hall p hp q hq)

/-- No secret is left, a second time changes nothing, and a text without secrets stays. -/
theorem redactStderr_complete (engine : Regex.Engine) (raw : String) :
    (∀ pattern ∈ redactionPatterns, pattern.2.Free (redactStderr engine raw).toList) ∧
      redactStderr engine (redactStderr engine raw) = redactStderr engine raw ∧
      ((∀ pattern ∈ redactionPatterns, pattern.2.Free raw.toList) →
        redactStderr engine raw = raw) := by
  have hpatterns : ∀ {text : List Char}, (∀ pattern ∈ redactionPatterns, pattern.2.Free text) ↔
      ∀ p ∈ redactions, p.1.Free text := by
    intro text
    simp [redactions, redactionPatterns]
  have hsame : ∀ {text : String}, (∀ p ∈ redactions, p.1.Free text.toList) →
      redactStderr engine text = text := fun hfree => by
    rw [redactStderr, Regex.replaceAll_of_free hfree, String.ofList_toList]
  have hfree : ∀ p ∈ redactions, p.1.Free (redactStderr engine raw).toList := by
    rw [redactStderr, String.toList_ofList]
    exact guarded_redactions.free_replaceAll raw.toList
  exact ⟨hpatterns.2 hfree, hsame hfree, fun h => hsame (hpatterns.1 h)⟩

end Gadgetron.Penny.Redact
