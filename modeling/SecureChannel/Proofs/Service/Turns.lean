import SecureChannel.Proofs.Registry.Retirement
import SecureChannel.Proofs.Service.Lifetime

/-!
# What a request means to the channel that it is for

A message and a request to close are the same up to the point where the ciphertext was opened, so
both are an `Inbound` here, with a flag that tells them apart. Of the whole server only one channel
takes part in serving it: `Channel.turn` is what that channel makes of the ciphertext, and
`Reaches.handle_eq` says that the server answers what the channel answers, puts the channel's new
state in the place of the old one, frees the name if the channel is done, and does nothing else.

A request that decodes to no name, or to a name that stands for no channel, changes nothing at all.

`Reachable` is a server at any moment: it was called with anything, and the application may also
have called the registry itself, with reservations of any origin.
-/

namespace SecureChannel

open Registry

namespace Service

structure Inbound where
  message : Message
  now : Nat
  closes : Bool

/-- The associated data under which the ciphertext was sealed. -/
def Inbound.marker (q : Inbound) : Bytes :=
  if q.closes then closeMarker else []

/-- Serves a message or a request to close; the answer to the latter is empty. -/
def handle (p : Primitives) (s : Service) (q : Inbound) : Except ChannelError Bytes × Service :=
  if q.closes then
    let (answer, s) := s.handleClose p q.now q.message
    (answer.map fun _ => [], s)
  else s.handleMessage p q.now q.message

/-- The name and the ciphertext that a request decodes to. -/
def decode (s : Service) (q : Inbound) : Except CodecError (ChannelId × Bytes) :=
  s.config.codec.decode s.config.idScheme q.message

end Service

/-- What a channel makes of a ciphertext. -/
structure Turn where
  answer : Except ChannelError Bytes
  channel : Channel
  gone : Bool

/-- The turn of a channel under the given limits, for an application that answers like `handler`. -/
def Channel.turn (p : Primitives) (limits : Limits) (handler : Bytes → Bytes)
    (q : Service.Inbound) (ciphertext : Bytes) (c : Channel) : Turn :=
  match c.pair.decrypter.decrypt p q.marker ciphertext with
  | .error e =>
      ⟨.error (.ofCipher e), c.refused q.now e,
        e.counts && decide (Exhausts limits (c.authFailures + 1))⟩
  | .ok (plaintext, decrypter) =>
      if q.closes then ⟨.ok [], c.opened q.now decrypter, true⟩
      else
        let (answer, sealed) :=
          (c.opened q.now decrypter).encrypt p q.now [] (handler plaintext)
        ⟨answer, sealed, false⟩

variable {p : Primitives} {s : Service} {q : Service.Inbound} {h : Handle} {c : Channel}
variable {id : ChannelId} {ciphertext : Bytes}

@[simp] theorem Channel.id_turn (p : Primitives) (limits : Limits) (handler : Bytes → Bytes)
    (q : Service.Inbound) (ciphertext : Bytes) (c : Channel) :
    (c.turn p limits handler q ciphertext).channel.id = c.id := by
  rw [Channel.turn]
  split
  · rfl
  · split
    · rfl
    · exact Channel.id_encrypt ..

namespace Service

/-! ### Requests that reach no channel -/

theorem receive_of_undecodable {e : CodecError} {m : Message}
    (undecodable : s.config.codec.decode s.config.idScheme m = .error e) (p : Primitives)
    (now : Nat) (ad : Bytes) : s.receive p now ad m = (.error (.codec e), s) := by
  simp only [receive, resolve, undecodable]

theorem receive_of_unknown {m : Message}
    (decoded : s.config.codec.decode s.config.idScheme m = .ok (id, ciphertext))
    (unknown : s.registry.live? id = none) (p : Primitives) (now : Nat) (ad : Bytes) :
    s.receive p now ad m = (.error (.unknownChannel id), s) := by
  simp only [receive, resolve, decoded, lookup, unknown]

/-- A request that is not even received is answered with the error, and that is all. -/
theorem handle_of_receive_error {e : ChannelError} {t : Service}
    (refused : s.receive p q.now q.marker q.message = (.error e, t)) :
    s.handle p q = (.error e, t) := by
  rw [Inbound.marker] at refused
  rw [handle]
  split
  · next closes =>
    rw [if_pos closes] at refused
    simp only [handleClose, refused]
    rfl
  · next serves =>
    rw [if_neg serves] at refused
    rw [handleMessage, refused]

theorem handle_of_undecodable {e : CodecError} (undecodable : s.decode q = .error e)
    (p : Primitives) : s.handle p q = (.error (.codec e), s) :=
  handle_of_receive_error (receive_of_undecodable undecodable p q.now q.marker)

theorem handle_of_unknown (decoded : s.decode q = .ok (id, ciphertext))
    (unknown : s.registry.live? id = none) (p : Primitives) :
    s.handle p q = (.error (.unknownChannel id), s) :=
  handle_of_receive_error (receive_of_unknown decoded unknown p q.now q.marker)

/-! ### Requests that reach a channel -/

/-- The answer is the channel's, and so is all that changes. -/
theorem Reaches.handle_eq (reaches : Reaches s q.message h c ciphertext) (p : Primitives) :
    ∃ r, s.handle p q = ((c.turn p s.registry.limits s.handler q ciphertext).answer,
        { s with registry := r }) ∧
      Changes s.registry h (c.turn p s.registry.limits s.handler q ciphertext).channel
        ((c.turn p s.registry.limits s.handler q ciphertext).gone = true) r := by
  rw [Channel.turn]
  cases result : c.pair.decrypter.decrypt p q.marker ciphertext with
  | error e =>
    obtain ⟨r, received, changes⟩ := reaches.receive_refused result q.now
    exact ⟨r, handle_of_receive_error received, changes⟩
  | ok opening =>
    obtain ⟨plaintext, decrypter⟩ := opening
    rw [Inbound.marker] at result
    rw [handle]
    cases closes : q.closes with
    | true =>
      simp only [closes, if_true] at result ⊢
      obtain ⟨r, closed, changes⟩ := reaches.handleClose_opened result q.now trivial
      refine ⟨r, ?_, changes⟩
      rw [closed]
      rfl
    | false =>
      simp only [closes, Bool.false_eq_true, if_false] at result ⊢
      obtain ⟨r, received, updates⟩ := reaches.receive_opened result q.now
      obtain ⟨answer, sent⟩ :=
        step_eq (f := fun c => c.encrypt p q.now [] (s.handler plaintext)) updates.changed
      refine ⟨_, ?_, (updates.trans sent).changes (by simp)⟩
      simp only [Service.handleMessage, received]
      exact Prod.ext answer rfl

/-! ### A server at any moment -/

inductive Event
  | handshake (now : Nat) (tag : Option Bytes) (request : Bytes) (draws : Nat → Nat)
      (fresh : Bytes32) (transport : Bytes → Delivery)
  | message (now : Nat) (m : Message)
  | close (now : Nat) (m : Message)
  | expire (now : Nat)

def serve (p : Primitives) (s : Service) : Event → Service
  | .handshake now tag request draws fresh transport =>
      (s.handleHandshake p now tag request draws fresh transport).2
  | .message now m => (s.handleMessage p now m).2
  | .close now m => (s.handleClose p now m).2
  | .expire now => (s.expireIdle now).2

/-- What calls lead to, one after the other, from a server that has just started. -/
inductive Reachable (p : Primitives) (config : Config) (key : Option StaticKey)
    (handler : Bytes → Bytes) : Service → Prop
  | start {s : Service} (made : Service.new config key handler = .ok s) :
      Reachable p config key handler s
  | serve {s : Service} (reached : Reachable p config key handler s) (event : Event) :
      Reachable p config key handler (s.serve p event)
  /-- The application calls the registry. -/
  | call {s : Service} (reached : Reachable p config key handler s) (held : List Reservation)
      (call : Registry.Call) : Reachable p config key handler
        { s with registry := (Usage.step p ⟨s.registry, held⟩ call).registry }

variable {config : Config} {key : Option StaticKey} {handler : Bytes → Bytes}

theorem evolves_serve (p : Primitives) (named : Named s.registry) (event : Event) :
    Evolves s.registry (s.serve p event).registry := by
  cases event with
  | handshake now tag request draws fresh transport =>
    exact evolves_handleHandshake p s now tag request draws fresh transport
  | message now m => exact evolves_handleMessage p named now m
  | close now m => exact evolves_handleClose p named now m
  | expire now => exact evolves_expireIdle s.registry now

/-- A call changes no more than the registry, and names stand for channels of these names. -/
theorem serve_service (p : Primitives) (named : Named s.registry) (event : Event) :
    ∃ r, s.serve p event = { s with registry := r } ∧ Named r := by
  have evolves := evolves_serve p named event
  obtain ⟨r, service⟩ : ∃ r, s.serve p event = { s with registry := r } := by
    cases event with
    | handshake now tag request draws fresh transport =>
      exact handleHandshake_service p s now tag request draws fresh transport
    | message now m => exact handleMessage_service p s now m
    | close now m => exact handleClose_service p s now m
    | expire now => exact ⟨_, rfl⟩
  rw [service] at evolves
  exact ⟨r, service, evolves.named named⟩

theorem Reachable.sound (reached : Reachable p config key handler s) :
    s.config = config ∧ s.handler = handler ∧ Named s.registry := by
  induction reached with
  | start made =>
    obtain ⟨rfl, -, -⟩ := World.service_new_ok made
    exact ⟨rfl, rfl, named_new _⟩
  | serve _ event ih =>
    obtain ⟨configured, handled, named⟩ := ih
    obtain ⟨r, service, named'⟩ := serve_service p named event
    rw [service]
    exact ⟨configured, handled, named'⟩
  | call _ held call ih =>
    obtain ⟨configured, handled, named⟩ := ih
    exact ⟨configured, handled, (Usage.retires_registryAfter p ⟨_, held⟩ call).named named⟩

/-- A name that stands for something live stands for a channel of the name. -/
theorem Reachable.reaches (reached : Reachable p config key handler s) {m : Message}
    (decoded : s.config.codec.decode s.config.idScheme m = .ok (id, ciphertext))
    (live : s.registry.live? id = some h) : ∃ c, c.id = id ∧ Reaches s m h c ciphertext := by
  obtain ⟨-, -, named⟩ := reached.sound
  obtain ⟨c, found, rfl⟩ := named id h live
  exact ⟨c, rfl, decoded, live, found⟩

/-! ### A server with two peers -/

def withPeer (s : Service) (tag : Bytes) : Service :=
  { s with registry :=
    (s.registry.setLive (.transport tag) (.new default default .implicit) 0).2 }

def twoPeers : Service := ((reverser .routing).withPeer [1]).withPeer [2]

theorem Reachable.withPeer (reached : Reachable p config key handler s)
    (room : s.registry.isFull = false) (tag : Bytes) :
    Reachable p config key handler (s.withPeer tag) := by
  have called := reached.call [] (.rekey (.transport tag) (.new default default .implicit) 0)
  rw [Service.withPeer]
  simpa only [Usage.step, Usage.registryAfter, rekey, room, Bool.and_false, Bool.false_eq_true,
    if_false] using called

theorem reachable_twoPeers :
    Reachable .standard (.peerNamed .routing) none List.reverse twoPeers := by
  have started : Reachable .standard (.peerNamed .routing) none List.reverse (reverser .routing) :=
    .start rfl
  refine (started.withPeer ?_ [1]).withPeer ?_ [2]
  · simp [reverser, Registry.new, isFull, Config.peerNamed, Config.limits, Config.default]
  · simp [reverser, Service.withPeer, Registry.new, setLive, isFull, Config.peerNamed,
      Config.limits, Config.default, Std.HashMap.size_insert]

theorem live?_twoPeers : twoPeers.registry.live? (.transport [1]) = some ⟨0⟩ ∧
    twoPeers.registry.live? (.transport [2]) = some ⟨1⟩ := by
  refine ⟨?_, live?_setLive ..⟩
  rw [twoPeers, Service.withPeer, (opens_setLive ..).live?_of_ne (by decide)]
  exact live?_setLive ..

theorem channel?_twoPeers :
    twoPeers.registry.channel? ⟨0⟩ =
      some (.new (.transport [1]) (.new default default .implicit) 0) ∧
    twoPeers.registry.channel? ⟨1⟩ =
      some (.new (.transport [2]) (.new default default .implicit) 0) := by
  refine ⟨?_, channel?_setLive ..⟩
  exact (opens_setLive ..).channel?_of_some (channel?_setLive ..)

/-- The peers of the server can seal what it opens. -/
theorem sealed_for_peer (ad : Bytes) {plaintext : Bytes}
    (short : ¬ CipherState.tooLong plaintext) :
    ∃ ciphertext decrypter, (CipherState.new default .implicit).decrypt .standard ad ciphertext =
      .ok (plaintext, decrypter) := by
  obtain ⟨ciphertext, sender, sent⟩ := CipherState.encrypt_isOk .standard ad
    (CipherState.nonce_new_ne_lastNonce default .implicit) short
  obtain ⟨decrypter, opened, -⟩ :=
    (CipherState.inStep_new default .implicit).deliver Primitives.standard_sealing sent
  exact ⟨ciphertext, decrypter, opened⟩

end Service

end SecureChannel
