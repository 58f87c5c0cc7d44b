import SecureChannel.Bytes.Hex
import SecureChannel.CipherState
import SecureChannel.Noise.Symmetric

/-!
# One-round-trip handshakes

Two patterns finish in one request and one response. Under `nn` both parties send an ephemeral key
and agree on one secret. Under `nk` the initiator knows the responder's static key beforehand, and
its first message already agrees on a secret with it, so the request's payload is sealed.

```text
nn   -> e            nk   <- s
     <- e, ee             ...
                          -> e, es
                          <- e, ee
```

A party is a `Party` value; `write` and `read` process one message each. Both refuse to act out of
turn, and a refused call leaves the party as it was. Fresh ephemeral keys are arguments, one for
each message written. After the second message `finish` splits the state into the two directions of
the channel; the initiator's sending direction is the responder's receiving one.
-/

namespace SecureChannel.Noise

inductive Pattern
  | nn
  | nk
deriving DecidableEq

inductive Token
  | e
  /-- Agree on a secret between both ephemeral keys. -/
  | ee
  /-- Agree on a secret between the initiator's ephemeral and the responder's static key. -/
  | es
deriving DecidableEq

namespace Pattern

instance : Inhabited Pattern := ⟨nn⟩

def protocolName : Pattern → String
  | nn => "Noise_NN_25519_ChaChaPoly_BLAKE2s"
  | nk => "Noise_NK_25519_ChaChaPoly_BLAKE2s"

def name : Pattern → String
  | nn => "Nn"
  | nk => "Nk"

def all : List Pattern := [nn, nk]

def wireName : Pattern → String
  | nn => "nn"
  | nk => "nk"

def ofWireName? (text : String) : Option Pattern :=
  all.find? fun pattern => pattern.wireName = text

/-- Whether the responder has a static key that the initiator knows. -/
def usesResponderStatic : Pattern → Bool
  | nn => false
  | nk => true

def messages : Pattern → List (List Token)
  | nn => [[.e], [.e, .ee]]
  | nk => [[.e, .es], [.e, .ee]]

end Pattern

inductive Role
  | initiator
  | responder
deriving DecidableEq

inductive Fault
  | input
  | decrypt
  | notTurnToWrite
  | notTurnToRead
  | alreadyFinished
  | missingKey
deriving DecidableEq

namespace Fault

def message : Fault → String
  | input => "input error"
  | decrypt => "decrypt error"
  | notTurnToWrite => "state error: NotTurnToWrite"
  | notTurnToRead => "state error: NotTurnToRead"
  | alreadyFinished => "state error: HandshakeAlreadyFinished"
  | missingKey => "state error: MissingKeyMaterial"

end Fault

inductive Error
  | unsupportedPattern (text : String)
  | missingRemoteStatic (pattern : Pattern)
  | missingLocalStatic (pattern : Pattern)
  | notComplete
  | invalidMessage
  | engine (fault : Fault)
deriving DecidableEq

namespace Error

def message : Error → String
  | unsupportedPattern text => s!"unsupported handshake pattern: {text}"
  | missingRemoteStatic pattern =>
      s!"pattern {pattern.name} requires the responder's static public key"
  | missingLocalStatic pattern => s!"pattern {pattern.name} requires a local static keypair"
  | notComplete => "handshake did not complete after the final message"
  | invalidMessage => "invalid handshake message"
  | engine fault => s!"snow error: {fault.message}"

end Error

namespace Pattern

/-- Reads a pattern's short name; ASCII letters of either case will do. -/
def parse (text : String) : Except Error Pattern :=
  let folded := text.map Char.toLower
  match ofWireName? folded with
  | some pattern => .ok pattern
  | none => .error (.unsupportedPattern folded)

end Pattern

/-- One party of a running handshake. -/
structure Party where
  pattern : Pattern
  role : Role
  symmetric : Symmetric
  /-- The private half of a static key of this party. -/
  localStatic : Option Bytes32
  /-- The static key that the other party is known by. -/
  remoteStatic : Option Bytes32
  ephemeral : Option Bytes32
  remoteEphemeral : Option Bytes32
  position : Nat
  myTurn : Bool
deriving DecidableEq

namespace Party

/-- No message, tags included, is longer than this. -/
def maxMessage : Nat := 65535

def keyLength : Nat := 32

def tagLength : Nat := 16

/-- The start for both roles: the name, an empty prologue and then the responder's static key. -/
private def begin (p : Primitives) (pattern : Pattern) (known : Option Bytes32) : Symmetric :=
  let s := (Symmetric.start p pattern.protocolName).mixHash p []
  match known with
  | none => s
  | some key => s.mixHash p key.toBytes

/-- A fresh initiator; it has to know the responder's key exactly if the pattern uses one. -/
def initiator (p : Primitives) (pattern : Pattern) (remoteStatic : Option Bytes32) :
    Except Error Party :=
  match pattern.usesResponderStatic, remoteStatic with
  | true, none => .error (.missingRemoteStatic pattern)
  | true, some key =>
      .ok ⟨pattern, .initiator, begin p pattern (some key), none, some key, none, none, 0, true⟩
  | false, _ => .ok ⟨pattern, .initiator, begin p pattern none, none, none, none, none, 0, true⟩

/-- A fresh responder; it has to have a static key exactly if the pattern uses one. -/
def responder (p : Primitives) (pattern : Pattern) (localPrivate : Option Bytes32) :
    Except Error Party :=
  match pattern.usesResponderStatic, localPrivate with
  | true, none => .error (.missingLocalStatic pattern)
  | true, some key =>
      .ok ⟨pattern, .responder, begin p pattern (some (p.publicKey key)), some key, none, none,
        none, 0, false⟩
  | false, _ => .ok ⟨pattern, .responder, begin p pattern none, none, none, none, none, 0, false⟩

/-- The secret that a token agrees on. -/
def secret (p : Primitives) (party : Party) : Token → Except Fault Bytes32
  | .e => .error .missingKey
  | .ee =>
      match party.ephemeral, party.remoteEphemeral with
      | some mine, some theirs => .ok (p.agree mine theirs)
      | _, _ => .error .missingKey
  | .es =>
      match party.role, party.ephemeral, party.remoteStatic, party.localStatic,
        party.remoteEphemeral with
      | .initiator, some mine, some theirs, _, _ => .ok (p.agree mine theirs)
      | .responder, _, _, some mine, some theirs => .ok (p.agree mine theirs)
      | _, _, _, _, _ => .error .missingKey

/-- Writes one token with a fresh ephemeral key at hand. -/
def writeToken (p : Primitives) (fresh : Bytes32) (state : Bytes × Party) (token : Token) :
    Except Fault (Bytes × Party) :=
  let (out, party) := state
  match token with
  | .e =>
      let key := (p.publicKey fresh).toBytes
      .ok (out ++ key,
        { party with symmetric := party.symmetric.mixHash p key, ephemeral := some fresh })
  | token => do
      let shared ← party.secret p token
      return (out, { party with symmetric := party.symmetric.mixKey p shared })

/-- Reads one token off the front of a message. -/
def readToken (p : Primitives) (state : Bytes × Party) (token : Token) :
    Except Fault (Bytes × Party) :=
  let (rest, party) := state
  match token with
  | .e =>
      match Bytes32.ofBytes? (rest.take keyLength) with
      | none => .error .input
      | some key =>
          .ok (rest.drop keyLength,
            { party with
              symmetric := party.symmetric.mixHash p key.toBytes
              remoteEphemeral := some key })
  | token => do
      let shared ← party.secret p token
      return (rest, { party with symmetric := party.symmetric.mixKey p shared })

/-- Writes the next message with a payload. -/
def write (p : Primitives) (party : Party) (fresh : Bytes32) (payload : Bytes) :
    Except Fault (Bytes × Party) := do
  if !party.myTurn then throw .notTurnToWrite
  match party.pattern.messages[party.position]? with
  | none => throw .alreadyFinished
  | some tokens =>
      let (head, next) ← tokens.foldlM (writeToken p fresh) ([], party)
      if maxMessage < head.length + payload.length + tagLength then throw .input
      let (sealed, symmetric) := next.symmetric.encryptAndHash p payload
      return (head ++ sealed,
        { next with symmetric := symmetric, position := party.position + 1, myTurn := false })

/-- Reads the next message and returns its payload. -/
def read (p : Primitives) (party : Party) (message : Bytes) : Except Fault (Bytes × Party) := do
  if maxMessage < message.length then throw .input
  if party.myTurn then throw .notTurnToRead
  match party.pattern.messages[party.position]? with
  | none => throw .alreadyFinished
  | some tokens =>
      let (rest, next) ← tokens.foldlM (readToken p) (message, party)
      match next.symmetric.decryptAndHash p rest with
      | none => throw .decrypt
      | some (payload, symmetric) =>
          return (payload,
            { next with symmetric := symmetric, position := party.position + 1, myTurn := true })

end Party

structure Finished where
  pair : CipherPair
  /-- The transcript digest, which binds the channel to this handshake. -/
  hash : Bytes32
  /-- The static key that the other party has proved to hold. -/
  remoteStatic : Option Bytes32
deriving DecidableEq

namespace Finished

def describe (f : Finished) : String :=
  let digits := Hex.encode f.hash.toBytes
  s!"HandshakeResult \x7b handshake_hash: \"{digits}\", .. \x7d"

end Finished

/-- Splits a handshake after its last message. -/
def Party.finish (p : Primitives) (party : Party) (mode : NonceMode) : Except Error Finished :=
  if party.position < party.pattern.messages.length then .error .notComplete
  else
    let (toResponder, toInitiator) := party.symmetric.split p
    let pair :=
      match party.role with
      | .initiator => CipherPair.new toResponder toInitiator mode
      | .responder => CipherPair.new toInitiator toResponder mode
    .ok ⟨pair, party.symmetric.hash, party.remoteStatic⟩

structure Initiator where
  party : Party
  mode : NonceMode
deriving DecidableEq

structure Responder where
  party : Party
  mode : NonceMode
deriving DecidableEq

/-- Turns a fault of the engine into an error of the handshake. -/
private def lift {α : Type} : Except Fault α → Except Error α
  | .ok a => .ok a
  | .error fault => .error (.engine fault)

namespace Initiator

/-- A fresh client side, with the server's static key where the pattern uses one. -/
def new (p : Primitives) (pattern : Pattern) (remoteStatic : Option Bytes32) (mode : NonceMode) :
    Except Error Initiator := do
  let party ← Party.initiator p pattern remoteStatic
  return ⟨party, mode⟩

def writeRequest (p : Primitives) (i : Initiator) (fresh : Bytes32) (payload : Bytes) :
    Except Error (Bytes × Initiator) := do
  let (message, party) ← lift (i.party.write p fresh payload)
  return (message, { i with party := party })

def readResponse (p : Primitives) (i : Initiator) (message : Bytes) :
    Except Error (Bytes × Finished) := do
  let (payload, party) ← lift (i.party.read p message)
  let finished ← party.finish p i.mode
  return (payload, finished)

end Initiator

namespace Responder

/-- A fresh server side, with its private static key where the pattern uses one. -/
def new (p : Primitives) (pattern : Pattern) (localPrivate : Option Bytes32) (mode : NonceMode) :
    Except Error Responder := do
  let party ← Party.responder p pattern localPrivate
  return ⟨party, mode⟩

def readRequest (p : Primitives) (r : Responder) (message : Bytes) :
    Except Error (Bytes × Responder) := do
  let (payload, party) ← lift (r.party.read p message)
  return (payload, { r with party := party })

def writeResponse (p : Primitives) (r : Responder) (fresh : Bytes32) (payload : Bytes) :
    Except Error (Bytes × Finished) := do
  let (message, party) ← lift (r.party.write p fresh payload)
  let finished ← party.finish p r.mode
  return (message, finished)

end Responder

end SecureChannel.Noise
