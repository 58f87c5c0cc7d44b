import SecureChannel.ClientChannel
import SecureChannel.PendingHandshake

/-!
# The service

A server answers handshakes, and it opens each message on the channel that the message names, hands
the plaintext to the application, and seals the application's answer on the same channel. Messages
that a channel refuses are counted against it. A request to close is opened under a marker of its
own and never reaches the application.
-/

namespace SecureChannel

structure Service where
  config : Config
  key : Option StaticKey
  registry : Registry
  /-- The application: an answer to each plaintext. -/
  handler : Bytes → Bytes

namespace Service

/-- A server without channels. The configuration has to be valid, and the pattern may ask for a
static key. -/
def new (config : Config) (key : Option StaticKey) (handler : Bytes → Bytes) :
    Except ChannelError Service := do
  config.validate
  if config.pattern.usesResponderStatic ∧ key = none then
    throw (.config s!"pattern {config.pattern.name} requires a server static keypair")
  return ⟨config, key, .new config.limits, handler⟩

def publicKey (s : Service) : Option PublicKey :=
  s.key.map (·.publicKey)

/-- The payload of the response. An empty payload of the request is not worth the application's
attention. -/
def earlyReply (s : Service) (payload : Bytes) : Bytes :=
  if payload.isEmpty then [] else s.handler payload

/-- Serves a handshake request over a transport. `tag` is the transport's name for the peer, `draws`
are random numbers for a name to assign, and `fresh` is an ephemeral key. -/
def handleHandshake (p : Primitives) (s : Service) (now : Nat) (tag : Option Bytes)
    (request : Bytes) (draws : Nat → Nat) (fresh : Bytes32) (transport : Bytes → Delivery) :
    Served × Service :=
  match PendingHandshake.accept p s.config s.key request with
  | .error e => (⟨none, .error e⟩, s)
  | .ok pending =>
      let (served, registry) :=
        pending.complete p s.registry now tag (s.earlyReply pending.payload) draws fresh transport
      (served, { s with registry := registry })

/-- The part of `handleHandshake` before the response is sent. -/
def prepareHandshake (p : Primitives) (s : Service) (tag : Option Bytes) (request : Bytes)
    (draws : Nat → Nat) (fresh : Bytes32) : Except ChannelError PreparedResponse × Service :=
  match PendingHandshake.accept p s.config s.key request with
  | .error e => (.error e, s)
  | .ok pending =>
      let (prepared, registry) :=
        pending.prepare p s.registry tag (s.earlyReply pending.payload) draws fresh
      (prepared, { s with registry := registry })

/-- The part of `handleHandshake` after the response was sent. In between the server may have been
called with anything. -/
def settleHandshake (s : Service) (now : Nat) (response : PreparedResponse)
    (delivery : Delivery) : Except ChannelError Handle × Service :=
  let (answer, registry) := response.settle s.registry now delivery
  (answer, { s with registry := registry })

/-- Serves a handshake request and returns the response in place of sending it. -/
def handshakeReply (p : Primitives) (s : Service) (now : Nat) (tag : Option Bytes)
    (request : Bytes) (draws : Nat → Nat) (fresh : Bytes32) :
    Except ChannelError Bytes × Service :=
  let (served, s) := s.handleHandshake p now tag request draws fresh fun _ => .delivered
  match served.answer, served.sent with
  | .error e, _ => (.error e, s)
  | .ok _, some message => (.ok message, s)
  | .ok _, none => (.error (.internal "handshake produced no reply"), s)

/-- Opens a ciphertext on a channel. A refusal is counted, and may cost the channel its name. -/
def openOn (p : Primitives) (r : Registry) (h : Handle) (now : Nat) (ad ciphertext : Bytes) :
    Except ChannelError Bytes × Registry :=
  match r.decrypt p h now ad ciphertext with
  | (.error .authenticationFailure, r) => (.error .authenticationFailure, (r.recordFailure h).2)
  | (.error (.replay nonce), r) => (.error (.replay nonce), (r.recordFailure h).2)
  | answer => answer

def resolve (s : Service) (now : Nat) (m : Message) :
    Except ChannelError (ChannelId × Handle × Bytes) × Registry :=
  match s.config.codec.decode s.config.idScheme m with
  | .error e => (.error (.codec e), s.registry)
  | .ok (id, ciphertext) =>
      match s.registry.lookup id now with
      | (.error e, r) => (.error e, r)
      | (.ok h, r) => (.ok (id, h, ciphertext), r)

/-- Takes in a message: the channel it is for, and its plaintext under the given associated data.
Only what comes out of here has a chance to reach the application. -/
def receive (p : Primitives) (s : Service) (now : Nat) (ad : Bytes) (m : Message) :
    Except ChannelError (ChannelId × Handle × Bytes) × Service :=
  match s.resolve now m with
  | (.error e, r) => (.error e, { s with registry := r })
  | (.ok (id, h, ciphertext), r) =>
      match openOn p r h now ad ciphertext with
      | (.error e, r) => (.error e, { s with registry := r })
      | (.ok plaintext, r) => (.ok (id, h, plaintext), { s with registry := r })

def handleMessage (p : Primitives) (s : Service) (now : Nat) (m : Message) :
    Except ChannelError Bytes × Service :=
  match s.receive p now [] m with
  | (.error e, s) => (.error e, s)
  | (.ok (_, h, plaintext), s) =>
      let (answer, r) := s.registry.encrypt p h now [] (s.handler plaintext)
      (answer, { s with registry := r })

/-- Serves a request to close: the channel loses its name. -/
def handleClose (p : Primitives) (s : Service) (now : Nat) (m : Message) :
    Except ChannelError Unit × Service :=
  match s.receive p now closeMarker m with
  | (.error e, s) => (.error e, s)
  | (.ok (id, h, _), s) =>
      match s.registry.removeChannel h with
      | (true, r) => (.ok (), { s with registry := r })
      | (false, r) => (.error (.unknownChannel id), { s with registry := r })

def expireIdle (s : Service) (now : Nat) : Nat × Service :=
  let (count, registry) := s.registry.expireIdle now
  (count, { s with registry := registry })

end Service

end SecureChannel
