import SecureChannel.Datagram.Endpoint
import SecureChannel.Frame.Decode
import SecureChannel.Service

/-!
# Serving datagrams

Each datagram is one frame and is served by itself. What is not a frame, and frames that only a
server sends, are dropped. Every other frame is answered with at least one frame to the same peer:
with the server's key, or with a reply that has the request's token. A failure is answered with a
reply that states the outcome and has no body.

Serving a handshake is in two parts. `dispatch` makes the response ready, and once it was handed to
the socket, `settle` makes the channel, or tells the peer that there is none. In between the server
may serve other datagrams; `handleDatagram` serves one from start to end with nothing in between.
-/

namespace SecureChannel

/-- Neither side reads a longer datagram. -/
def maxDatagram : Nat := 65507

/-- Whether a frame can be sent to every endpoint, and read there. -/
def Frame.fits (frame : Frame) : Bool :=
  frame.encode.length ≤ maxDatagram

/-- How much a datagram to an endpoint can hold. -/
def Endpoint.maxPayload : Endpoint → Nat
  | .v4 _ _ => 65507
  | .v6 address _ _ => if address.isMapped then 65507 else 65527

/-- What becomes of a frame that is handed to a socket which can send. -/
def Frame.delivery (peer : Endpoint) (frame : Frame) : Delivery :=
  if frame.encode.length ≤ peer.maxPayload then .delivered else .failed (.io .messageTooLong)

structure Outgoing where
  peer : Endpoint
  frame : Frame
deriving DecidableEq

namespace DatagramServer

def inbound (codec : Codec) (peer : Endpoint) (token : Option Bytes) (query : Option String)
    (body : Bytes) : Message :=
  ⟨transportTag codec token peer, query, body⟩

inductive Reaction
  | answer (frame : Option Frame)
  /-- The response to a handshake is to be sent, and settled then. -/
  | respond (response : PreparedResponse)

def keyAnswer (s : Service) : Frame :=
  match s.publicKey with
  | some key => .key key.point.toBytes
  | none => .reply none .badRequest []

/-- The reply that holds an answer, or tells of an error. -/
def replyTo (token : Option Bytes) : Except ChannelError Bytes → Frame
  | .ok body => .reply token .success body
  | .error e => .reply token e.outcome []

/-- Serves one frame, as far as this goes without sending anything. `draws` are random numbers for a
name to assign, and `fresh` is an ephemeral key. -/
def dispatch (p : Primitives) (s : Service) (now : Nat) (peer : Endpoint) (draws : Nat → Nat)
    (fresh : Bytes32) : Frame → Reaction × Service
  | .keyRequest => (.answer (some (keyAnswer s)), s)
  | .handshake token payload =>
      match s.prepareHandshake p (transportTag s.config.codec token peer) payload draws fresh with
      | (.error e, s) => (.answer (some (replyTo token (.error e))), s)
      | (.ok response, s) => (.respond response, s)
  | .message token query body =>
      let (answer, s) := s.handleMessage p now (inbound s.config.codec peer token query body)
      (.answer (some (replyTo token answer)), s)
  | .close token query body =>
      let (answer, s) := s.handleClose p now (inbound s.config.codec peer token query body)
      (.answer (some (replyTo token (answer.map fun _ => []))), s)
  | .key _ | .reply _ _ _ => (.answer none, s)

def settle (s : Service) (now : Nat) (token : Option Bytes) (response : PreparedResponse)
    (delivery : Delivery) : Option Frame × Service :=
  match s.settleHandshake now response delivery with
  | (.error e, s) => (some (replyTo token (.error e)), s)
  | (.ok _, s) => (none, s)

/-- What leaves for a peer of the frames that are handed to a socket. -/
def leaving (peer : Endpoint) (socket : Frame → Delivery) (frames : List Frame) : List Outgoing :=
  (frames.filter fun frame => socket frame = .delivered).map fun frame => ⟨peer, frame⟩

/-- Serves one datagram and returns what is sent. `socket` says what becomes of the frames. -/
def handleDatagram (p : Primitives) (s : Service) (now : Nat) (peer : Endpoint)
    (socket : Frame → Delivery) (datagram : Bytes) (draws : Nat → Nat) (fresh : Bytes32) :
    List Outgoing × Service :=
  match Frame.decode datagram with
  | .error _ => ([], s)
  | .ok frame =>
      match dispatch p s now peer draws fresh frame with
      | (.answer reply, s) => (leaving peer socket reply.toList, s)
      | (.respond response, s) =>
          let message := replyTo frame.token? (.ok response.message)
          let (refusal, s) := settle s now frame.token? response (socket message)
          (leaving peer socket (message :: refusal.toList), s)

end DatagramServer

end SecureChannel
