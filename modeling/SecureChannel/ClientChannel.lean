import SecureChannel.Config
import SecureChannel.StaticKey

/-!
# The client's side of a handshake, and of the channel

`start` writes the request. What the transport makes of it is an `Exchange`, and `finish` turns that
into a channel. The client learns the channel's name in the way of the scheme: from the front of
the reply, from the transcript digest, or from the transport's tag.

A request to tear a channel down is an empty message sealed with a fixed marker as associated data,
so it cannot be taken for a message of the application.
-/

namespace SecureChannel

/-- The associated data of a request to close. -/
def closeMarker : Bytes :=
  Bytes.ofText "latch-close"

inductive Exchange
  | reply (message : Bytes)
  | failed (error : TransportError)
  /-- Nothing had come back when the time was over. -/
  | stalled
deriving DecidableEq

structure ClientChannel where
  id : ChannelId
  pair : CipherPair
  /-- What the server sent along with its response. -/
  reply : Bytes
  /-- The server's static key, if the handshake has proved it. -/
  remoteStatic : Option PublicKey
deriving DecidableEq

/-- A handshake whose request was written. -/
structure ClientHandshake where
  config : Config
  initiator : Noise.Initiator
  request : Bytes
deriving DecidableEq

namespace ClientHandshake

/-- Writes the request, with the server's key if that is pinned, a payload and an ephemeral key. -/
def start (p : Primitives) (config : Config) (serverKey : Option PublicKey) (payload : Bytes)
    (fresh : Bytes32) : Except ChannelError ClientHandshake :=
  let written : Except Noise.Error (Bytes × Noise.Initiator) := do
    let initiator ←
      Noise.Initiator.new p config.pattern (serverKey.map PublicKey.point) config.nonceMode
    initiator.writeRequest p fresh payload
  match written with
  | .ok (request, initiator) => .ok ⟨config, initiator, request⟩
  | .error e => .error (.ofNoise e)

/-- The response, if there was one. A server that refuses the request itself has refused the
handshake; everything else is the transport's failure. -/
def response (h : ClientHandshake) : Exchange → Except ChannelError Bytes
  | .reply message => .ok message
  | .stalled => .error (.transport (.timeout h.config.handshakeTimeout))
  | .failed (.rejected .badRequest) =>
      .error (.handshake s!"server rejected handshake: {Outcome.badRequest.describe}")
  | .failed (.rejected .unauthorized) =>
      .error (.handshake s!"server rejected handshake: {Outcome.unauthorized.describe}")
  | .failed e => .error (.transport e)

/-- The name of the channel, and what is left of the reply. -/
def name (h : ClientHandshake) (finished : Noise.Finished) (reply : Bytes) (tag : Option Bytes) :
    Except ChannelError (ChannelId × Bytes) :=
  match h.config.idScheme with
  | .random16 | .random32 =>
      match ChannelId.splitAssigned h.config.idScheme reply with
      | .ok answer => .ok answer
      | .error e => .error (.handshake s!"invalid assigned channel id: {e.message}")
  | .binding => .ok (.binding finished.hash, reply)
  | .transport =>
      match tag with
      | none => .error (.handshake "transport provides no channel tag")
      | some tag =>
          match ChannelId.decode .transport tag with
          | .ok id => .ok (id, reply)
          | .error e => .error (.handshake e.message)

/-- Reads the response. `tag` is the transport's name for the channel. -/
def finish (p : Primitives) (h : ClientHandshake) (exchange : Exchange) (tag : Option Bytes) :
    Except ChannelError ClientChannel := do
  let message ← h.response exchange
  match h.initiator.readResponse p message with
  | .error e => throw (.ofNoise e)
  | .ok (reply, finished) =>
      let (id, reply) ← h.name finished reply tag
      return ⟨id, finished.pair, reply, finished.remoteStatic.map PublicKey.mk⟩

end ClientHandshake

namespace ClientChannel

def encrypt (p : Primitives) (c : ClientChannel) (ad plaintext : Bytes) :
    Except ChannelError (Bytes × ClientChannel) :=
  match c.pair.encrypter.encrypt p ad plaintext with
  | .ok (ciphertext, encrypter) =>
      .ok (ciphertext, { c with pair := { c.pair with encrypter := encrypter } })
  | .error e => .error (.ofCipher e)

def decrypt (p : Primitives) (c : ClientChannel) (ad ciphertext : Bytes) :
    Except ChannelError (Bytes × ClientChannel) :=
  match c.pair.decrypter.decrypt p ad ciphertext with
  | .ok (plaintext, decrypter) =>
      .ok (plaintext, { c with pair := { c.pair with decrypter := decrypter } })
  | .error e => .error (.ofCipher e)

def encryptClose (p : Primitives) (c : ClientChannel) :
    Except ChannelError (Bytes × ClientChannel) :=
  c.encrypt p closeMarker []

def describe (c : ClientChannel) : String :=
  let key :=
    match c.remoteStatic with
    | none => "None"
    | some key => s!"Some({key.describe})"
  s!"ClientChannel \x7b id: {c.id.describe}, remote_static: {key}, .. \x7d"

end ClientChannel

end SecureChannel
