import Gadgetron.Lib.OrdSet
import Gadgetron.Lib.SortBy
import Gadgetron.Lib.Text
import Gadgetron.Lib.Exec
import Gadgetron.Core.Context

/-!
# Policy inputs

The facts about a proposed action that a policy is evaluated on, their checks, and `for_gadget`,
which builds them.
-/

namespace Gadgetron.Policy

open Lib

inductive PolicyError
  | invalid (detail : String)
  | identityHashMismatch
  deriving DecidableEq

def PolicyError.toString : PolicyError → String
  | .invalid detail => "invalid policy: " ++ detail
  | .identityHashMismatch => "policy identity hash does not match the document"

/-! ## JSON -/

/-- A JSON value; a number is kept as its text. -/
inductive Json
  | null
  | bool (value : Bool)
  | number (text : String)
  | string (value : String)
  | array (values : List Json)
  | object (values : List (String × Json))

mutual

/-- `canonical_json`: objects with their keys in increasing order. -/
def canonicalJson : Json → Json
  | .array values => .array (canonicalValues values)
  | .object values => .object (sortBy (fun a b => compare a.1 b.1) (canonicalFields values))
  | .null => .null
  | .bool value => .bool value
  | .number text => .number text
  | .string value => .string value

/-- `canonical_json` on the elements of an array. -/
def canonicalValues : List Json → List Json
  | [] => []
  | value :: values => canonicalJson value :: canonicalValues values

/-- `canonical_json` on the values of an object. -/
def canonicalFields : List (String × Json) → List (String × Json)
  | [] => []
  | (key, value) :: values => (key, canonicalJson value) :: canonicalFields values

end

/-! ## Facts about an action -/

inductive PolicyEffect
  | read
  | write
  | destructive
  deriving DecidableEq

inductive PolicyRisk
  | unrated
  | low
  | medium
  | high
  | critical
  deriving DecidableEq

inductive EvidenceState
  | missing
  | sufficient
  | stale
  | contradictory
  deriving DecidableEq

inductive OutcomeState
  | missing
  | verifiable
  deriving DecidableEq

inductive RollbackState
  | unknown
  | unavailable
  | available
  deriving DecidableEq

/-- The enumerations are ordered by the position of their constructors, as the source derives. -/
instance : LinearOrder PolicyEffect :=
  LinearOrder.lift' PolicyEffect.ctorIdx fun a b h => by
    cases a <;> cases b <;> first | rfl | cases h

instance : LinearOrder PolicyRisk :=
  LinearOrder.lift' PolicyRisk.ctorIdx fun a b h => by
    cases a <;> cases b <;> first | rfl | cases h

instance : LinearOrder EvidenceState :=
  LinearOrder.lift' EvidenceState.ctorIdx fun a b h => by
    cases a <;> cases b <;> first | rfl | cases h

instance : LinearOrder OutcomeState :=
  LinearOrder.lift' OutcomeState.ctorIdx fun a b h => by
    cases a <;> cases b <;> first | rfl | cases h

instance : LinearOrder RollbackState :=
  LinearOrder.lift' RollbackState.ctorIdx fun a b h => by
    cases a <;> cases b <;> first | rfl | cases h

structure EvidenceAssessment where
  state : EvidenceState
  references : OrdSet String

structure OutcomeAssessment where
  state : OutcomeState
  predicateRef : Option String

structure RollbackAssessment where
  state : RollbackState
  compensatingAction : Option String

structure PolicyInput where
  actionId : String
  (gadgetName parametersHash : Option String)
  nameSpace : String
  effect : PolicyEffect
  risk : PolicyRisk
  (requestedScopes actorScopes : OrdSet String)
  evidence : EvidenceAssessment
  outcome : OutcomeAssessment
  rollback : RollbackAssessment

/-! ## Checks -/

def maxReferences : ℕ := 128

def maxScopes : ℕ := 64

def validateLabel (field value : String) (max : ℕ) : Except PolicyError Unit :=
  if (trim value).toList.isEmpty || decide (max < value.utf8ByteSize) ||
      value.toList.any isControl then
    .error (.invalid (field ++ " must be non-empty single-line text up to " ++
      ToString.toString max ++ " bytes"))
  else .ok ()

def validateOptionalLabel (field : String) (value : Option String) (max : ℕ) :
    Except PolicyError Unit :=
  match value with
  | some value => validateLabel field value max
  | none => .ok ()

def validateSetSize (field : String) (len max : ℕ) : Except PolicyError Unit :=
  if max < len then .error (.invalid (field ++ " exceed " ++ ToString.toString max)) else .ok ()

/-- The form of a digest: `sha256:` and 64 lowercase hexadecimal digits. -/
def isDigest (value : String) : Bool :=
  value.utf8ByteSize == 71 && decide ("sha256:".toList <+: value.toList) &&
    (value.toList.drop 7).all fun c => c.isDigit || (decide ('a' ≤ c) && decide (c ≤ 'f'))

def validateDigest (field value : String) : Except PolicyError Unit :=
  if isDigest value then .ok ()
  else .error (.invalid (field ++ " must be a lowercase sha256 digest"))

def PolicyInput.validate (input : PolicyInput) : Except PolicyError Unit := do
  validateLabel "action_id" input.actionId 160
  validateLabel "namespace" input.nameSpace 64
  validateOptionalLabel "gadget_name" input.gadgetName 160
  match input.parametersHash with
  | some hash => validateDigest "parameters_hash" hash
  | none => .ok ()
  if maxReferences < input.evidence.references.length then
    .error (.invalid ("evidence references exceed " ++ ToString.toString maxReferences))
  else .ok ()
  validateSetSize "requested scopes" input.requestedScopes.length maxScopes
  validateSetSize "actor scopes" input.actorScopes.length maxScopes
  forM (input.requestedScopes.toList ++ input.actorScopes.toList ++
      input.evidence.references.toList) fun value =>
    validateLabel "policy input reference" value 256
  validateOptionalLabel "outcome predicate" input.outcome.predicateRef 256
  validateOptionalLabel "compensating action" input.rollback.compensatingAction 160

/-- `PolicyInput::digest`; `digest` is SHA-256 over the encoding of an input. -/
def PolicyInput.digestWith (digest : PolicyInput → String) (input : PolicyInput) :
    Except PolicyError String := do
  input.validate
  return digest input

/-- `PolicyInput::with_parameters`; `digest` is SHA-256 over the encoding of a JSON value. -/
def PolicyInput.withParameters (digest : Json → String) (input : PolicyInput) (parameters : Json) :
    Except PolicyError PolicyInput := do
  let input := { input with parametersHash := some (digest (canonicalJson parameters)) }
  input.validate
  return input

/-! ## Inputs of gadget calls -/

structure GadgetPolicyMetadata where
  effect : PolicyEffect
  risk : PolicyRisk
  requestedScopes : OrdSet String
  (requiresEvidence outcomeVerifiable : Bool)
  outcomeRef : Option String
  rollbackAvailable : Bool
  rollbackRef : Option String

/-- The part of `name` before the first dot (`name.split('.').next()`). -/
def namespaceOf (name : String) : String := String.ofList (name.toList.takeWhile (· != '.'))

/-- `PolicyInput::for_gadget`; `scopes` are those of the dispatch context. -/
def PolicyInput.forGadget (scopes : List String) (name : String) (metadata : GadgetPolicyMetadata) :
    Except PolicyError PolicyInput := do
  let input : PolicyInput :=
    { actionId := name
      gadgetName := some name
      parametersHash := none
      nameSpace := namespaceOf name
      effect := metadata.effect
      risk := metadata.risk
      requestedScopes := metadata.requestedScopes
      actorScopes := OrdSet.ofList scopes
      evidence :=
        { state := if metadata.requiresEvidence then .missing else .sufficient
          references := OrdSet.empty }
      outcome :=
        { state := if metadata.outcomeVerifiable then .verifiable else .missing
          predicateRef := metadata.outcomeRef }
      rollback :=
        { state :=
            if metadata.rollbackAvailable then .available
            else if metadata.effect = .destructive then .unavailable
            else .unknown
          compensatingAction := metadata.rollbackRef } }
  input.validate
  return input

end Gadgetron.Policy
