import Mathlib.Data.String.Basic

/-!
# Protocol envelopes

The envelope of a message between Core and a bundle runtime or broker, and its routing check, which
differs in the field it names.
-/

namespace Gadgetron.Host

structure BundleSdkError where
  (field reason : String)
  deriving DecidableEq

structure BundleRuntimeIdentity where
  (id version : String)
  deriving DecidableEq

structure Envelope (α : Type) where
  protocolVersion : ℕ
  messageId : String
  bundle : BundleRuntimeIdentity
  payload : α
  deriving DecidableEq

def bundleHostProtocolVersion : ℕ := 1

def bundleBrokerProtocolVersion : ℕ := 1

section

variable {α : Type} (messageId : String) (bundle : BundleRuntimeIdentity) (payload : α)

def Envelope.new : Envelope α := ⟨bundleHostProtocolVersion, messageId, bundle, payload⟩

/-- `BrokerEnvelope::new`. -/
def Envelope.newBroker : Envelope α := ⟨bundleBrokerProtocolVersion, messageId, bundle, payload⟩

end

def maxMessageId : ℕ := 128

def isMessageIdChar (c : Char) : Bool :=
  c.isAlphanum || c == '-' || c == '_' || c == '.' || c == ':'

/-- `validate_message_id`, with the field it names; all allowed characters are ASCII. -/
def validateMessageId (field : String) (value : String) : Except BundleSdkError Unit :=
  if value.toList.isEmpty || maxMessageId < value.toList.length ||
      !value.toList.all isMessageIdChar then
    .error ⟨field, "must contain 1-128 characters from [A-Za-z0-9_.:-]"⟩
  else .ok ()

/-- The checks of `validate_routing`; the fields are named below `scope`. -/
def Envelope.validateRoutingIn {α : Type} (scope : String) (envelope : Envelope α)
    (expectedBundle : BundleRuntimeIdentity) (expectedProtocol : ℕ) :
    Except BundleSdkError Unit := do
  if envelope.protocolVersion ≠ expectedProtocol then
    throw ⟨scope ++ "protocol_version", "expected " ++ toString expectedProtocol ++
      ", received " ++ toString envelope.protocolVersion⟩
  validateMessageId (scope ++ "message_id") envelope.messageId
  if envelope.bundle ≠ expectedBundle then
    throw ⟨scope ++ "bundle", "expected " ++ expectedBundle.id ++ "@" ++ expectedBundle.version ++
      ", received " ++ envelope.bundle.id ++ "@" ++ envelope.bundle.version⟩

def Envelope.validateRouting {α : Type} (envelope : Envelope α)
    (expectedBundle : BundleRuntimeIdentity) (expectedProtocol : ℕ) : Except BundleSdkError Unit :=
  envelope.validateRoutingIn "" expectedBundle expectedProtocol

/-- `BrokerEnvelope::validate_routing`. -/
def Envelope.validateBrokerRouting {α : Type} (envelope : Envelope α)
    (expectedBundle : BundleRuntimeIdentity) : Except BundleSdkError Unit :=
  envelope.validateRoutingIn "broker." expectedBundle bundleBrokerProtocolVersion

end Gadgetron.Host
