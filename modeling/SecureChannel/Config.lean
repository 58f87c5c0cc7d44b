import SecureChannel.Codec
import SecureChannel.Error
import SecureChannel.FileStore
import SecureChannel.Json.Reader
import SecureChannel.Noise.Handshake

/-!
# Configuration

What both ends of a channel have to agree on, and the limits that a server keeps. A configuration
file is a JSON record in which every member may be absent. `validate` refuses the combinations that
cannot give a working channel, and names the first fault it finds.
-/

namespace SecureChannel

/-- What a registry holds on to, and for how long. -/
structure Limits where
  /-- How many names may be in use at once. -/
  maxSessions : Nat
  /-- Channels that were not used for more than so many milliseconds are dropped. -/
  idleTimeout : Option Nat
  /-- So many failures in a row end a channel; zero stands for any number. -/
  maxAuthFailures : UInt32
deriving DecidableEq

/-- The agreement between both ends, and the server's limits. -/
structure Config where
  pattern : Noise.Pattern
  idScheme : IdScheme
  codec : Codec
  nonceMode : NonceMode
  maxSessions : Nat
  /-- In seconds; zero stands for no limit. -/
  idleTimeoutSeconds : Nat
  maxAuthFailures : UInt32
  handshakeTimeout : Nat
deriving DecidableEq

namespace Config

/-- What holds where nothing else is said. -/
def default : Config where
  pattern := .nn
  idScheme := .random16
  codec := .envelope
  nonceMode := .implicit
  maxSessions := 4096
  idleTimeoutSeconds := 60
  maxAuthFailures := 16
  handshakeTimeout := 5000

instance : Inhabited Config := ⟨default⟩

/-- The time after which an unused channel is dropped, in milliseconds. -/
def idleTimeout (c : Config) : Option Nat :=
  if c.idleTimeoutSeconds = 0 then none else some (c.idleTimeoutSeconds * 1000)

/-- The limits of a server's registry. -/
def limits (c : Config) : Limits :=
  ⟨c.maxSessions, c.idleTimeout, c.maxAuthFailures⟩

inductive Fault
  | codecNeedsTransport (codec : Codec)
  | envelopeWithTransport
  | noSessions
  | tooManySessions (sessions available : Nat) (scheme : IdScheme)
  | window (size : UInt64)
  | noTimeout
deriving DecidableEq

namespace Fault

def message : Fault → String
  | codecNeedsTransport codec =>
      s!"codec {codec.name} carries no identifier and needs the transport id scheme"
  | envelopeWithTransport =>
      "envelope codec carries its own identifier and cannot use the transport id scheme"
  | noSessions => "max_sessions must be at least 1"
  | tooManySessions sessions available scheme =>
      s!"max_sessions {sessions} exceeds the {available} ids available to {scheme.name}"
  | window size => s!"replay window must be 1-{ReplayWindow.maxSize}, got {size}"
  | noTimeout => "handshake_timeout_ms must be non-zero"

end Fault

def sessionsFault? (c : Config) : Option Fault :=
  match c.idScheme.capacity with
  | some available =>
      if available < c.maxSessions then some (.tooManySessions c.maxSessions available c.idScheme)
      else none
  | none => none

def windowFault? (c : Config) : Option Fault :=
  match c.nonceMode with
  | .implicit => none
  | .explicit size =>
      if size = 0 ∨ ReplayWindow.maxSize < size then some (.window size) else none

/-- The first fault of a configuration. -/
def fault? (c : Config) : Option Fault :=
  if c.codec.requiresTransportId ∧ c.idScheme ≠ .transport then some (.codecNeedsTransport c.codec)
  else if c.codec = .envelope ∧ c.idScheme = .transport then some .envelopeWithTransport
  else if c.maxSessions = 0 then some .noSessions
  else
    match c.sessionsFault? with
    | some fault => some fault
    | none =>
        match c.windowFault? with
        | some fault => some fault
        | none => if c.handshakeTimeout = 0 then some .noTimeout else none

def validate (c : Config) : Except ChannelError Unit :=
  match c.fault? with
  | some fault => .error (.config fault.message)
  | none => .ok ()

/-- Exactly the codecs that carry no name go with the transport scheme. -/
theorem requiresTransportId_iff_of_valid {c : Config} (valid : c.validate = .ok ()) :
    c.codec.requiresTransportId = true ↔ c.idScheme = .transport := by
  constructor
  · intro needs
    apply Classical.byContradiction
    intro other
    simp [validate, fault?, needs, other] at valid
  · intro scheme
    cases codec : c.codec with
    | envelope => simp [validate, fault?, scheme, codec, Codec.requiresTransportId] at valid
    | tokenReuse | query | routing => rfl

inductive Field
  | pattern
  | idScheme
  | codec
  | nonceMode
  | maxSessions
  | idleTimeout
  | maxAuthFailures
  | handshakeTimeout
deriving DecidableEq

/-- Takes the way of counting: its kind stands under `mode`, and the size of the window beside an
explicit one. -/
def readNonceMode : Json.Reader NonceMode := fun tokens => do
  let ((kind, body), tokens) ←
    Json.readTagged "mode" ["implicit", "explicit"] (Json.maxLevels - 1) tokens
  match kind, body with
  | "implicit", .members _ | "implicit", .items [] => return (.implicit, tokens)
  | "implicit", .items _ => throw .malformed
  | _, .items [size] => return (.explicit (UInt64.ofNat (← Json.nat? UInt64.size size)), tokens)
  | _, .items _ => throw .malformed
  | _, .members members =>
      let sizes := members.filter fun (name, _) => name = "window"
      match sizes with
      | [] => throw (.missingField "window")
      | (_, size) :: more =>
          let size ← Json.nat? UInt64.size size
          if more.isEmpty then return (.explicit (UInt64.ofNat size), tokens)
          else throw (.duplicateField "window")

namespace Field

def all : List Field :=
  [pattern, idScheme, codec, nonceMode, maxSessions, idleTimeout, maxAuthFailures, handshakeTimeout]

def wireName : Field → String
  | pattern => "pattern"
  | idScheme => "id_scheme"
  | codec => "codec"
  | nonceMode => "nonce_mode"
  | maxSessions => "max_sessions"
  | idleTimeout => "idle_timeout_secs"
  | maxAuthFailures => "max_auth_failures"
  | handshakeTimeout => "handshake_timeout_ms"

def ofWireName? (text : String) : Option Field :=
  all.find? fun field => field.wireName = text

def read (field : Field) (c : Config) : Json.Reader Config := fun tokens =>
  match field with
  | pattern => do
      let (name, tokens) ← Json.readVariant (Noise.Pattern.all.map Noise.Pattern.wireName) tokens
      return ({ c with pattern := (Noise.Pattern.ofWireName? name).getD c.pattern }, tokens)
  | idScheme => do
      let (name, tokens) ← Json.readVariant (IdScheme.all.map IdScheme.wireName) tokens
      return ({ c with idScheme := (IdScheme.ofWireName? name).getD c.idScheme }, tokens)
  | codec => do
      let (name, tokens) ← Json.readVariant (Codec.all.map Codec.wireName) tokens
      return ({ c with codec := (Codec.ofWireName? name).getD c.codec }, tokens)
  | nonceMode => do
      let (mode, tokens) ← readNonceMode tokens
      return ({ c with nonceMode := mode }, tokens)
  | maxSessions => do
      let (n, tokens) ← Json.readNat UInt64.size tokens
      return ({ c with maxSessions := n }, tokens)
  | idleTimeout => do
      let (n, tokens) ← Json.readNat UInt64.size tokens
      return ({ c with idleTimeoutSeconds := n }, tokens)
  | maxAuthFailures => do
      let (n, tokens) ← Json.readNat UInt32.size tokens
      return ({ c with maxAuthFailures := UInt32.ofNat n }, tokens)
  | handshakeTimeout => do
      let (n, tokens) ← Json.readNat UInt64.size tokens
      return ({ c with handshakeTimeout := n }, tokens)

end Field

/-- Takes one member, given those that were read before. Names that are not known are skipped. -/
def readMember (state : List Field × Config) (name : String) :
    Json.Reader (List Field × Config) := fun tokens =>
  let (seen, c) := state
  match Field.ofWireName? name with
  | none => do
      let (_, tokens) ← Json.skipMember tokens
      return (state, tokens)
  | some field =>
      if field ∈ seen then .error (.duplicateField name)
      else do
        let (_, tokens) ← Json.readColon tokens
        let (c, tokens) ← field.read c tokens
        return ((field :: seen, c), tokens)

/-- Takes a configuration: an object, or an array of its first members in order. -/
def reader : Json.Reader Config
  | .openObject :: tokens => do
      let ((_, c), tokens) ← Json.readObject readMember ([], default) tokens
      return (c, tokens)
  | .openArray :: tokens =>
      Json.readFields true default (Field.all.map fun field c => field.read c) tokens
  | _ => .error .malformed

def decode (document : Bytes) : Except Json.Error Config :=
  Json.readDocument reader document

/-- The members of the way of counting. -/
def nonceModeMembers : NonceMode → List (String × String)
  | .implicit => [("mode", Json.printText "implicit")]
  | .explicit size => [("mode", Json.printText "explicit"), ("window", toString size.toNat)]

/-- The text of a file that holds a configuration, with all its members. -/
def toText (c : Config) : String :=
  Json.printObject
    [(Field.pattern.wireName, Json.printText c.pattern.wireName),
      (Field.idScheme.wireName, Json.printText c.idScheme.wireName),
      (Field.codec.wireName, Json.printText c.codec.wireName),
      (Field.nonceMode.wireName, Json.printObject (nonceModeMembers c.nonceMode)),
      (Field.maxSessions.wireName, toString c.maxSessions),
      (Field.idleTimeout.wireName, toString c.idleTimeoutSeconds),
      (Field.maxAuthFailures.wireName, toString c.maxAuthFailures.toNat),
      (Field.handshakeTimeout.wireName, toString c.handshakeTimeout)]

/-- The configuration in a file, which `path` names in faults: the file has to be readable text that
describes a valid configuration. -/
def ofFile (path : String) (contents : Except IoError String) : Except ChannelError Config := do
  match contents with
  | .error e => throw (.config s!"failed to read {path}: {e.message}")
  | .ok text =>
      match decode (Bytes.ofText text) with
      | .error e => throw (.config s!"invalid config {path}: {e.message}")
      | .ok c =>
          c.validate
          return c

def load {m : Type → Type} [Monad m] (files : FileAccess m) (path : String) :
    ExceptT ChannelError m Config := do
  match ofFile path (← files.readText path) with
  | .ok c => return c
  | .error e => throw e

end Config

end SecureChannel
