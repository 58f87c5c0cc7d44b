import SecureChannel.Registry
import SecureChannel.StaticKey

/-!
# The server's side of a handshake

A request is first read, so that the application can look at its payload before it answers. Then
the response is made ready: the name of the channel is settled as far as its scheme allows, and the
response is written. At last the response is delivered, and the channel becomes live if that worked.

Under the random schemes the name is reserved first and stands in front of the reply. Under the
binding scheme the name is the transcript digest of the written response, and is reserved then.
Under the transport scheme the name is the peer's tag. It is not reserved, since a peer sets up a
channel anew by another handshake, and an earlier channel stays until the new one is there.
-/

namespace SecureChannel

inductive Delivery
  | delivered
  | failed (error : TransportError)
  /-- The transport had not finished when the time was over. -/
  | stalled
deriving DecidableEq

structure PendingHandshake where
  config : Config
  responder : Noise.Responder
  payload : Bytes
deriving DecidableEq

inductive Naming
  /-- The name is held for it. -/
  | held (reservation : Reservation)
  /-- It takes the name from whoever has it then. -/
  | taken (id : ChannelId)
deriving DecidableEq

namespace Naming

def id : Naming → ChannelId
  | held reservation => reservation.id
  | taken id => id

end Naming

structure PreparedResponse where
  message : Bytes
  naming : Naming
  pair : CipherPair
  timeout : Nat
deriving DecidableEq

namespace PendingHandshake

/-- Reads a request, with the private half of the server's static key if it has one. -/
def accept (p : Primitives) (config : Config) (key : Option StaticKey) (request : Bytes) :
    Except ChannelError PendingHandshake :=
  let opened : Except Noise.Error (Bytes × Noise.Responder) := do
    let responder ←
      Noise.Responder.new p config.pattern (key.map StaticKey.privateKey) config.nonceMode
    responder.readRequest p request
  match opened with
  | .ok (payload, responder) => .ok ⟨config, responder, payload⟩
  | .error e => .error (.ofNoise e)

def respond (p : Primitives) (h : PendingHandshake) (fresh : Bytes32) (payload : Bytes) :
    Except ChannelError (Bytes × Noise.Finished) :=
  match h.responder.writeResponse p fresh payload with
  | .ok answer => .ok answer
  | .error e => .error (.ofNoise e)

/-- Writes the response under a reserved name, which stands in front of the reply. A reservation
that is of no use any more is given up. -/
def prepareAssigned (p : Primitives) (h : PendingHandshake) (r : Registry)
    (reservation : Reservation) (reply : Bytes) (fresh : Bytes32) :
    Except ChannelError PreparedResponse × Registry :=
  match h.respond p fresh (reservation.id.toBytes ++ reply) with
  | .error e => (.error e, r.release reservation)
  | .ok (message, finished) =>
      (.ok ⟨message, .held reservation, finished.pair, h.config.handshakeTimeout⟩, r)

/-- Draws a free name and writes the response under it. -/
def prepareAllocated (p : Primitives) (h : PendingHandshake) (r : Registry) (reply : Bytes)
    (draws : Nat → Nat) (fresh : Bytes32) : Except ChannelError PreparedResponse × Registry :=
  match r.allocate h.config.idScheme draws with
  | (.error e, r) => (.error e, r)
  | (.ok reservation, r) => h.prepareAssigned p r reservation reply fresh

/-- Writes the response and then reserves the name that follows from it. -/
def prepareBinding (p : Primitives) (h : PendingHandshake) (r : Registry) (reply : Bytes)
    (fresh : Bytes32) : Except ChannelError PreparedResponse × Registry :=
  match h.respond p fresh reply with
  | .error e => (.error e, r)
  | .ok (message, finished) =>
      match r.reserve (.binding finished.hash) with
      | (.error e, r) => (.error e, r)
      | (.ok reservation, r) =>
          (.ok ⟨message, .held reservation, finished.pair, h.config.handshakeTimeout⟩, r)

/-- The name that the transport gives to its peer. -/
def peerId (tag : Option Bytes) : Except ChannelError ChannelId :=
  match tag with
  | none => .error (.handshake "transport provides no peer tag")
  | some tag =>
      match ChannelId.decode .transport tag with
      | .ok id => .ok id
      | .error e => .error (.identifier e)

def prepareTransport (p : Primitives) (h : PendingHandshake) (r : Registry) (tag : Option Bytes)
    (reply : Bytes) (fresh : Bytes32) : Except ChannelError PreparedResponse × Registry :=
  match peerId tag with
  | .error e => (.error e, r)
  | .ok id =>
      match h.respond p fresh reply with
      | .error e => (.error e, r)
      | .ok (message, finished) =>
          (.ok ⟨message, .taken id, finished.pair, h.config.handshakeTimeout⟩, r)

/-- Makes the response ready. `tag` is the transport's name for the peer, `draws` are random
numbers for a name to assign, and `fresh` is an ephemeral key. -/
def prepare (p : Primitives) (h : PendingHandshake) (r : Registry) (tag : Option Bytes)
    (reply : Bytes) (draws : Nat → Nat) (fresh : Bytes32) :
    Except ChannelError PreparedResponse × Registry :=
  match h.config.idScheme with
  | .random16 | .random32 => h.prepareAllocated p r reply draws fresh
  | .binding => h.prepareBinding p r reply fresh
  | .transport => h.prepareTransport p r tag reply fresh

/-- Why a name cannot be assigned under a scheme. -/
def assignFault? (scheme : IdScheme) (id : ChannelId) : Option ChannelError :=
  if id.scheme ≠ scheme ∨ id.scheme.assignedLength = none then
    some (.config s!"cannot assign {id.toText} under the {scheme.name} scheme")
  else if id.isReserved then some (.identifier .reserved)
  else none

/-- Makes the response ready under a name that the application has chosen. -/
def prepareWithId (p : Primitives) (h : PendingHandshake) (r : Registry) (id : ChannelId)
    (reply : Bytes) (fresh : Bytes32) : Except ChannelError PreparedResponse × Registry :=
  match assignFault? h.config.idScheme id with
  | some e => (.error e, r)
  | none =>
      match r.reserve id with
      | (.error e, r) => (.error e, r)
      | (.ok reservation, r) => h.prepareAssigned p r reservation reply fresh

end PendingHandshake

namespace PreparedResponse

/-- Gives up what is held for a response that was not delivered. -/
def abandon (response : PreparedResponse) (r : Registry) : Registry :=
  match response.naming with
  | .held reservation => r.release reservation
  | .taken _ => r

/-- Makes the channel live after delivery. -/
def establish (response : PreparedResponse) (r : Registry) (now : Nat) :
    Except ChannelError Handle × Registry :=
  match response.naming with
  | .held reservation =>
      let (h, r) := r.commit reservation response.pair now
      (.ok h, r)
  | .taken id => r.rekey id response.pair now

/-- What follows from the fate of a response. -/
def settle (response : PreparedResponse) (r : Registry) (now : Nat) :
    Delivery → Except ChannelError Handle × Registry
  | .delivered => response.establish r now
  | .failed e => (.error (.transport e), response.abandon r)
  | .stalled => (.error (.transport (.timeout response.timeout)), response.abandon r)

end PreparedResponse

/-- What a server handed to its transport, and whether there is a channel now. -/
structure Served where
  sent : Option Bytes
  answer : Except ChannelError Handle

namespace PreparedResponse

/-- Delivers a response, if it could be made ready. -/
def deliver (prepared : Except ChannelError PreparedResponse × Registry) (now : Nat)
    (transport : Bytes → Delivery) : Served × Registry :=
  match prepared with
  | (.error e, r) => (⟨none, .error e⟩, r)
  | (.ok response, r) =>
      let (answer, r) := response.settle r now (transport response.message)
      (⟨some response.message, answer⟩, r)

end PreparedResponse

namespace PendingHandshake

def complete (p : Primitives) (h : PendingHandshake) (r : Registry) (now : Nat)
    (tag : Option Bytes) (reply : Bytes) (draws : Nat → Nat) (fresh : Bytes32)
    (transport : Bytes → Delivery) : Served × Registry :=
  PreparedResponse.deliver (h.prepare p r tag reply draws fresh) now transport

/-- Answers a request over a transport under a name that the application has chosen. -/
def completeWithId (p : Primitives) (h : PendingHandshake) (r : Registry) (now : Nat)
    (id : ChannelId) (reply : Bytes) (fresh : Bytes32) (transport : Bytes → Delivery) :
    Served × Registry :=
  PreparedResponse.deliver (h.prepareWithId p r id reply fresh) now transport

def serve (p : Primitives) (config : Config) (key : Option StaticKey) (r : Registry) (now : Nat)
    (tag : Option Bytes) (request : Bytes) (draws : Nat → Nat) (fresh : Bytes32)
    (transport : Bytes → Delivery) : Served × Registry :=
  match accept p config key request with
  | .error e => (⟨none, .error e⟩, r)
  | .ok pending => pending.complete p r now tag [] draws fresh transport

end PendingHandshake

end SecureChannel
