import SecureChannel.Codec
import SecureChannel.IoError
import SecureChannel.Noise.Handshake
import SecureChannel.Outcome
import SecureChannel.Text.Duration

/-!
# Errors of channels

Faults of the layers below are told apart by cause, and each cause has one outcome that a server
reports to its peer. What a peer can provoke with malformed octets is a bad request, what it can
provoke with a wrong key or a stale name is unauthorized, and everything else is internal.
-/

namespace SecureChannel

/-- Why a transport did not deliver. -/
inductive TransportError
  | io (error : IoError)
  | timeout (milliseconds : Nat)
  | rejected (outcome : Outcome)
  | unexpectedReply (text : String)
deriving DecidableEq

namespace TransportError

def message : TransportError → String
  | io error => s!"I/O error: {error.message}"
  | timeout milliseconds => s!"timed out after {Text.duration milliseconds}"
  | rejected outcome => s!"peer replied with {outcome.describe}"
  | unexpectedReply text => s!"unexpected reply: {text}"

def causes : TransportError → List String
  | io error => [error.message]
  | _ => []

end TransportError

/-- Why an operation on channels fails. -/
inductive ChannelError
  | transport (error : TransportError)
  /-- A handshake message is malformed or does not open. -/
  | handshake (text : String)
  | unknownChannel (id : ChannelId)
  | authenticationFailure
  | replay (nonce : UInt64)
  | nonceExhausted
  | collision (id : ChannelId)
  | registryFull (limit : Nat)
  | allocationExhausted (attempts : Nat)
  | codec (error : CodecError)
  | identifier (error : IdError)
  | config (text : String)
  | internal (text : String)
deriving DecidableEq

namespace ChannelError

def message : ChannelError → String
  | transport error => s!"transport error: {error.message}"
  | handshake text => s!"handshake failed: {text}"
  | unknownChannel id => s!"unknown channel {id.toText}"
  | authenticationFailure => "authentication failure"
  | replay nonce => s!"replay detected: nonce {nonce}"
  | nonceExhausted => "nonce space exhausted, a new handshake is required"
  | collision id => s!"channel {id.toText} is already registered"
  | registryFull limit => s!"session registry is full ({limit} channels)"
  | allocationExhausted attempts => s!"no free channel identifier after {attempts} attempts"
  | codec error => s!"codec error: {error.message}"
  | identifier error => s!"invalid channel identifier: {error.message}"
  | config text => s!"configuration error: {text}"
  | internal text => s!"internal error: {text}"

def causes : ChannelError → List String
  | transport error => error.message :: error.causes
  | codec error => [error.message]
  | identifier error => [error.message]
  | _ => []

def outcome : ChannelError → Outcome
  | codec _ | identifier _ => .badRequest
  | unknownChannel _ | authenticationFailure | replay _ | handshake _ => .unauthorized
  | transport _ | nonceExhausted | collision _ | registryFull _ | allocationExhausted _
  | config _ | internal _ => .internalError

/-- The error of a channel whose cipher state refused. -/
def ofCipher : CipherError → ChannelError
  | .authenticationFailure => authenticationFailure
  | .replay nonce => replay nonce
  | .nonceExhausted => nonceExhausted
  | .encryptionFailed => internal "encryption failed"

/-- The error of a handshake. What can only be a mistake in the set-up is one of configuration. -/
def ofNoise (error : Noise.Error) : ChannelError :=
  match error with
  | .missingLocalStatic _ | .missingRemoteStatic _ | .unsupportedPattern _ => config error.message
  | .notComplete | .invalidMessage | .engine _ => handshake error.message

end ChannelError

end SecureChannel
