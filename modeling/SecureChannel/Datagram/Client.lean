import SecureChannel.ClientChannel
import SecureChannel.Datagram.Endpoint
import SecureChannel.Datagram.Server

/-!
# A client of datagrams

A client sends one request and waits for its answer. Requests carry a token of eight octets, and
the first frame with the same token is the answer; everything else that comes in is dropped. Only a
request for the server's key has no token, and takes the first frame there is.

Tokens are fresh, except that under token reuse the messages on a channel carry the token of its
handshake, which stands at the end of the channel's name.

Each call is in two parts, the request to send and the use of what came back, so that it can be said
what happens in between.
-/

namespace SecureChannel

def tokenLength : Nat := 8

/-- One socket of a client. -/
structure DatagramClient where
  endpoint : Endpoint
  codec : Codec
  /-- How long to wait for an answer, in milliseconds. -/
  timeout : Nat
  token : Option Bytes
deriving DecidableEq

/-- A frame to send, and the token that its answer has to have, if it has to have one. -/
structure Request where
  frame : Frame
  token : Option Bytes
deriving DecidableEq

namespace Request

/-- The answer that a datagram holds, if it does. -/
def accepts (request : Request) (datagram : Bytes) : Option Frame :=
  match Frame.decode datagram with
  | .error _ => none
  | .ok frame =>
      if request.token = none || frame.token? = request.token then some frame else none

/-- The answer among the datagrams that come in, and those behind it. -/
def awaitAnswer (request : Request) : List Bytes → Option Frame × List Bytes
  | [] => (none, [])
  | datagram :: rest =>
      match request.accepts datagram with
      | some frame => (some frame, rest)
      | none => awaitAnswer request rest

end Request

inductive Arrival
  | frame (frame : Frame)
  | failed (error : IoError)
  | none
deriving DecidableEq

namespace DatagramClient

def new (endpoint : Endpoint) (config : Config) : DatagramClient :=
  ⟨endpoint, config.codec, config.handshakeTimeout, .none⟩

/-- The transport's tag of the channel that the last handshake has set up. -/
def channelTag (c : DatagramClient) : Option Bytes :=
  transportTag c.codec c.token c.endpoint

def received (c : DatagramClient) : Arrival → Except TransportError Frame
  | .frame frame => .ok frame
  | .failed e => .error (.io e)
  | .none => .error (.timeout c.timeout)

/-- A frame that is no answer to the request. -/
def unexpected (frame : Frame) : TransportError :=
  .unexpectedReply frame.describe

/-- The body of a reply that tells of success. -/
def successBody (c : DatagramClient) (arrival : Arrival) : Except TransportError Bytes := do
  match ← c.received arrival with
  | .reply _ outcome body => if outcome.isSuccess then return body else throw (.rejected outcome)
  | frame => throw (unexpected frame)

def keyRequest : Request := ⟨.keyRequest, none⟩

def keyOf (c : DatagramClient) (arrival : Arrival) : Except ChannelError PublicKey :=
  match c.received arrival with
  | .error e => .error (.transport e)
  | .ok (.key octets) =>
      match PublicKey.ofBytes octets with
      | .ok key => .ok key
      | .error r => .error (.handshake r.headline)
  | .ok (.reply _ outcome _) => .error (.transport (.rejected outcome))
  | .ok frame => .error (.transport (unexpected frame))

/-- Carries a handshake request under a fresh token. -/
def handshakeRequest (c : DatagramClient) (request token : Bytes) : Request × DatagramClient :=
  (⟨.handshake (some token) request, some token⟩, { c with token := some token })

/-- The response to a handshake request, if that has arrived. Of the time that the handshake has and
the time that the client waits, the shorter one is over first. -/
def exchange (c : DatagramClient) (handshakeTimeout : Nat) (arrival : Arrival) : Exchange :=
  match arrival with
  | .none => if c.timeout < handshakeTimeout then .failed (.timeout c.timeout) else .stalled
  | arrival =>
      match c.successBody arrival with
      | .ok body => .reply body
      | .error e => .failed e

def requestToken (c : DatagramClient) (tag : Option Bytes) (fresh : Bytes) : Bytes :=
  match c.codec, tag with
  | .tokenReuse, some tag =>
      if tokenLength ≤ tag.length then tag.drop (tag.length - tokenLength) else fresh
  | _, _ => fresh

def request (c : DatagramClient) (id : ChannelId) (ciphertext fresh : Bytes)
    (kind : Option Bytes → Option String → Bytes → Frame) : Request :=
  let m := c.codec.encode id ciphertext
  let token := c.requestToken m.tag fresh
  ⟨kind (some token) m.query m.body, some token⟩

def messageRequest (p : Primitives) (c : DatagramClient) (channel : ClientChannel)
    (plaintext fresh : Bytes) : Except ChannelError (Request × ClientChannel) := do
  let (ciphertext, channel) ← channel.encrypt p [] plaintext
  return (c.request channel.id ciphertext fresh .message, channel)

/-- Seals a request to tear the channel down and carries it. -/
def closeRequest (p : Primitives) (c : DatagramClient) (channel : ClientChannel) (fresh : Bytes) :
    Except ChannelError (Request × ClientChannel) := do
  let (ciphertext, channel) ← channel.encryptClose p
  return (c.request channel.id ciphertext fresh .close, channel)

def messageAnswer (p : Primitives) (c : DatagramClient) (channel : ClientChannel)
    (arrival : Arrival) : Except ChannelError (Bytes × ClientChannel) :=
  match c.successBody arrival with
  | .error e => .error (.transport e)
  | .ok body => channel.decrypt p [] body

def closeAnswer (c : DatagramClient) (arrival : Arrival) : Except ChannelError Unit :=
  match c.successBody arrival with
  | .error e => .error (.transport e)
  | .ok _ => .ok ()

end DatagramClient

end SecureChannel
