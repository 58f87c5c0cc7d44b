import SecureChannel.Proofs.Datagram.Serving
import SecureChannel.Proofs.Service.Handshake
import SecureChannel.Proofs.Service.World

/-!
# A running server of datagrams

A `Hosting` is a server of datagrams together with the handshakes that it has still to settle and
the origins of its channels. It gets datagrams, which it serves as far as possible without waiting,
and it settles handshakes. Each of this is a call of the `Running` server that it is, so what holds
of that holds here. `handleDatagram_eq` says that serving a datagram from start to end is the one
and then the other.
-/

namespace SecureChannel

open Registry DatagramServer

/-- The peer that has asked for a handshake, and the token of its request. -/
structure Asker where
  peer : Endpoint
  token : Option Bytes

/-- Where a channel comes from. -/
structure Origin extends Asker where
  handle : Handle

/-- A running server of datagrams, and where its channels come from. -/
structure Hosting extends Running Asker where
  origins : List Origin

namespace Hosting

/-- Gets a datagram. At most one frame is handed to the socket at once. -/
def receive (p : Primitives) (w : Hosting) (now : Nat) (peer : Endpoint) (octets : Bytes)
    (draws : Nat → Nat) (fresh : Bytes32) : Option Outgoing × Hosting :=
  match Frame.decode octets with
  | .error _ => (none, w)
  | .ok frame =>
      match dispatch p w.service now peer draws fresh frame with
      | (.answer reply, s) => (reply.map (⟨peer, ·⟩), { w with service := s })
      | (.respond response, s) =>
          let tag := transportTag w.service.config.codec frame.token? peer
          (some ⟨peer, replyTo frame.token? (.ok response.message)⟩,
            { w with
              service := s
              unsettled := w.unsettled ++ [⟨⟨peer, frame.token?⟩, tag, response⟩] })

/-- Settles a handshake. If there is no channel, the peer is told. -/
def settle (w : Hosting) (now index : Nat) (delivery : Delivery) : Option Outgoing × Hosting :=
  match w.toRunning.settle now index delivery with
  | (none, running) => (none, ⟨running, w.origins⟩)
  | (some (one, .ok h), running) => (none, ⟨running, w.origins ++ [⟨one.asker, h⟩]⟩)
  | (some (one, .error e), running) =>
      (some ⟨one.asker.peer, replyTo one.asker.token (.error e)⟩, ⟨running, w.origins⟩)

def expire (w : Hosting) (now : Nat) : Hosting :=
  { w with service := (w.service.expireIdle now).2 }

/-- What a frame is to the service. -/
def callOf (codec : Codec) (now : Nat) (peer : Endpoint) (draws : Nat → Nat) (fresh : Bytes32) :
    Frame → Option (Running.Event Asker)
  | .handshake token payload =>
      some (.prepare ⟨peer, token⟩ (transportTag codec token peer) payload draws fresh)
  | .message token query body => some (.message now (inbound codec peer token query body))
  | .close token query body => some (.close now (inbound codec peer token query body))
  | .keyRequest | .key _ | .reply _ _ _ => none

variable {p : Primitives} {config : Config} {w : Hosting} {now index : Nat} {peer : Endpoint}
variable {octets : Bytes} {draws : Nat → Nat} {fresh : Bytes32} {frame : Frame}

/-! ### Serving frames -/

theorem receive_of_malformed {e : Json.Error} (malformed : Frame.decode octets = .error e)
    (p : Primitives) (w : Hosting) (now : Nat) (peer : Endpoint) (draws : Nat → Nat)
    (fresh : Bytes32) : w.receive p now peer octets draws fresh = (none, w) := by
  simp only [receive, malformed]

/-- Only what a datagram says matters, and not how it is laid out. -/
theorem receive_of_decode (decoded : Frame.decode octets = .ok frame) (p : Primitives)
    (w : Hosting) (now : Nat) (peer : Endpoint) (draws : Nat → Nat) (fresh : Bytes32) :
    w.receive p now peer octets draws fresh =
      w.receive p now peer frame.encode draws fresh := by
  simp only [receive, decoded, Frame.decode_encode]

theorem receive_message (p : Primitives) (w : Hosting) (now : Nat) (peer : Endpoint)
    (token : Option Bytes) (query : Option String) (body : Bytes) (draws : Nat → Nat)
    (fresh : Bytes32) :
    w.receive p now peer (Frame.message token query body).encode draws fresh =
      (some ⟨peer, replyTo token
        (w.service.handleMessage p now (inbound w.service.config.codec peer token query body)).1⟩,
        { w with service := (w.service.handleMessage p now
          (inbound w.service.config.codec peer token query body)).2 }) := by
  simp only [receive, Frame.decode_encode, dispatch, Option.map_some]

theorem receive_close (p : Primitives) (w : Hosting) (now : Nat) (peer : Endpoint)
    (token : Option Bytes) (query : Option String) (body : Bytes) (draws : Nat → Nat)
    (fresh : Bytes32) :
    w.receive p now peer (Frame.close token query body).encode draws fresh =
      (some ⟨peer, replyTo token ((w.service.handleClose p now
          (inbound w.service.config.codec peer token query body)).1.map fun _ => [])⟩,
        { w with service := (w.service.handleClose p now
          (inbound w.service.config.codec peer token query body)).2 }) := by
  simp only [receive, Frame.decode_encode, dispatch, Option.map_some]

/-- A handshake is answered with the error, or with the response, which is settled later. -/
theorem receive_handshake (p : Primitives) (w : Hosting) (now : Nat) (peer : Endpoint)
    (token : Option Bytes) (payload : Bytes) (draws : Nat → Nat) (fresh : Bytes32) :
    w.receive p now peer (Frame.handshake token payload).encode draws fresh =
      let (answer, running) := w.toRunning.prepare p ⟨peer, token⟩
        (transportTag w.service.config.codec token peer) payload draws fresh
      (some ⟨peer, replyTo token (answer.map (·.message))⟩, ⟨running, w.origins⟩) := by
  simp only [receive, Frame.decode_encode, dispatch, Running.prepare]
  rcases w.service.prepareHandshake p (transportTag w.service.config.codec token peer) payload draws
    fresh with ⟨e | response, s⟩ <;> rfl

/-- Getting a datagram is a call of the service, if anything. -/
theorem receive_toRunning (decoded : Frame.decode octets = .ok frame) (p : Primitives)
    (w : Hosting) (now : Nat) (peer : Endpoint) (draws : Nat → Nat) (fresh : Bytes32) :
    (w.receive p now peer octets draws fresh).2.toRunning =
      (callOf w.service.config.codec now peer draws fresh frame).elim w.toRunning
        (w.toRunning.step p) := by
  rw [receive_of_decode decoded]
  cases frame with
  | handshake token payload =>
    rw [receive_handshake]
    rfl
  | message token query body =>
    rw [receive_message]
    rfl
  | close token query body =>
    rw [receive_close]
    rfl
  | keyRequest | key _ | reply _ _ _ =>
    simp only [receive, Frame.decode_encode, dispatch]
    rfl

theorem settle_toRunning (p : Primitives) (w : Hosting) (now index : Nat) (delivery : Delivery) :
    (w.settle now index delivery).2.toRunning =
      w.toRunning.step p (.settle now index delivery) := by
  rw [settle, Running.step]
  rcases w.toRunning.settle now index delivery with ⟨_ | ⟨one, e | h⟩, running⟩ <;> rfl

theorem receive_origins (p : Primitives) (w : Hosting) (now : Nat) (peer : Endpoint)
    (octets : Bytes) (draws : Nat → Nat) (fresh : Bytes32) :
    (w.receive p now peer octets draws fresh).2.origins = w.origins := by
  rw [receive]
  split
  · rfl
  · split <;> rfl

/-- Serving a datagram from start to end is getting it and then settling the handshake, if there is
one, with what becomes of the response. -/
theorem handleDatagram_eq (p : Primitives) (w : Hosting) (now : Nat) (peer : Endpoint)
    (socket : Frame → Delivery) (octets : Bytes) (draws : Nat → Nat) (fresh : Bytes32) :
    handleDatagram p w.service now peer socket octets draws fresh =
      let (handed, one) := w.receive p now peer octets draws fresh
      let (refusal, two) := one.settle now w.unsettled.length
        (handed.elim .stalled fun out => socket out.frame)
      (leaving peer socket ((handed.toList ++ refusal.toList).map (·.frame)), two.service) := by
  have settled : ∀ (s : Service) delivery, settle ⟨⟨s, w.unsettled⟩, w.origins⟩ now
      w.unsettled.length delivery = (none, ⟨⟨s, w.unsettled⟩, w.origins⟩) := by
    intro s delivery
    simp [settle, Running.settle]
  rw [handleDatagram, receive]
  cases Frame.decode octets with
  | error e =>
    simp only [settled]
    rfl
  | ok frame =>
    rcases dispatched : dispatch p w.service now peer draws fresh frame with ⟨reply | response, s⟩
    · simp only [dispatched, settled]
      cases reply <;> rfl
    · simp only [dispatched, settle, DatagramServer.settle, Running.settle,
        List.getElem?_concat_length, Option.elim_some]
      rcases s.settleHandshake now response
        (socket (replyTo frame.token? (.ok response.message))) with ⟨e | h, t⟩ <;> rfl

/-! ### Frames that are handed to the socket -/

/-- Everything goes back to the peer, and answers what it has sent. -/
theorem answers_of_receive {out : Outgoing}
    (handed : (w.receive p now peer octets draws fresh).1 = some out) :
    out.peer = peer ∧ ∃ request, Frame.decode octets = .ok request ∧
      (dispatch p w.service now peer draws fresh request).1.frame? request.token? =
        some out.frame := by
  rw [receive] at handed
  cases decoded : Frame.decode octets with
  | error e =>
    rw [decoded] at handed
    cases handed
  | ok request =>
    simp only [decoded] at handed
    split at handed
    · next reply s dispatched =>
      obtain ⟨frame, rfl, rfl⟩ := Option.map_eq_some_iff.mp handed
      exact ⟨rfl, request, rfl, by rw [dispatched]; rfl⟩
    · next response s dispatched =>
      cases handed
      exact ⟨rfl, request, rfl, by rw [dispatched]; rfl⟩

/-- A datagram leads to one handshake that waits at most, and that is the peer's. -/
theorem asker_of_receive {one : Unsettled Asker} (inside :
    (w.receive p now peer octets draws fresh).2.unsettled[w.unsettled.length]? = some one) :
    ∃ request, Frame.decode octets = .ok request ∧ one.asker = ⟨peer, request.token?⟩ := by
  rw [receive] at inside
  cases decoded : Frame.decode octets with
  | error e =>
    rw [decoded] at inside
    simp at inside
  | ok request =>
    simp only [decoded] at inside
    split at inside
    · simp at inside
    · rw [List.getElem?_concat_length] at inside
      cases inside
      exact ⟨request, rfl, rfl⟩

/-- What is sent when a handshake is settled tells its peer of a failure. -/
theorem refusal_of_settle {delivery : Delivery} {out : Outgoing}
    (refused : (w.settle now index delivery).1 = some out) :
    ∃ one e, w.unsettled[index]? = some one ∧ out = ⟨one.asker.peer, replyTo one.asker.token
      (.error e)⟩ := by
  rw [settle] at refused
  rcases w.toRunning.settle_cases now index delivery with
    ⟨-, settled⟩ | ⟨one, e, r, inside, settled, -⟩ | ⟨one, r, -, -, settled, -⟩
  · rw [settled] at refused
    cases refused
  · rw [settled] at refused
    cases refused
    exact ⟨one, e, inside, rfl⟩
  · rw [settled] at refused
    cases refused

/-! ### Honest handshakes -/

/-- An honest handshake under the transport scheme is answered with the response. -/
theorem receive_welcomes {serverKey : Option PublicKey}
    {payload token tag request response : Bytes} {id : ChannelId} {e up down : Bytes32}
    (welcomes : w.service.Welcomes p serverKey payload tag id e fresh request response up down)
    (known : transportTag w.service.config.codec (some token) peer = some tag) (now : Nat)
    (draws : Nat → Nat) :
    w.receive p now peer (Frame.handshake (some token) request).encode draws fresh =
      (some ⟨peer, .reply (some token) .success response⟩,
        { w with unsettled := w.unsettled ++ [⟨⟨peer, some token⟩, some tag, response, .taken id,
          .new down up w.service.config.nonceMode, w.service.config.handshakeTimeout⟩] }) := by
  rw [receive_handshake, known]
  simp only [Running.prepare, welcomes.prepares draws]
  rfl

/-- If there is room, settling a response that has left registers its name. -/
theorem settle_delivered {one : Unsettled Asker} (inside : w.unsettled[index]? = some one)
    (room : w.service.registry.slots[one.response.naming.id]? = none →
      w.service.registry.isFull = false) (now : Nat) :
    w.settle now index .delivered =
      (none, ⟨⟨{ w.service with registry :=
          (w.service.registry.setLive one.response.naming.id one.response.pair now).2 },
        w.unsettled.eraseIdx index⟩,
        w.origins ++ [⟨one.asker, ⟨w.service.registry.channels.size⟩⟩]⟩) := by
  simp only [settle, Running.settle, inside, Service.settleHandshake_delivered now _ room]

/-! ### The invariant -/

/-- What is known at every moment. Each tag is the one that the transport gives to the peer. -/
structure Steady (config : Config) (w : Hosting) : Prop where
  configured : w.service.config = config
  running : w.toRunning.Sound
  tags : ∀ one ∈ w.unsettled, one.tag = transportTag config.codec one.asker.token one.asker.peer

theorem steady_start {s : Service} (configured : s.config = config) (named : Named s.registry) :
    Steady config ⟨⟨s, []⟩, []⟩ :=
  ⟨configured, Running.sound_start named, by simp⟩

theorem Steady.receive (steady : Steady config w) (p : Primitives) (now : Nat) (peer : Endpoint)
    (octets : Bytes) (draws : Nat → Nat) (fresh : Bytes32) :
    Steady config (w.receive p now peer octets draws fresh).2 := by
  cases decoded : Frame.decode octets with
  | error e => rwa [receive_of_malformed decoded]
  | ok frame =>
    have call := receive_toRunning decoded p w now peer draws fresh
    cases called : callOf w.service.config.codec now peer draws fresh frame with
    | none =>
      rw [called, Option.elim_none] at call
      exact ⟨by rw [call, steady.configured], call ▸ steady.running,
        by rw [call]; exact steady.tags⟩
    | some event =>
      rw [called, Option.elim_some] at call
      obtain ⟨r, service⟩ := Running.step_service p w.toRunning event
      refine ⟨by rw [call, service]; exact steady.configured,
        call ▸ steady.running.step p event, ?_⟩
      rw [call]
      intro one mem
      cases frame with
      | handshake token payload =>
        cases called
        rw [Running.step] at mem
        rcases w.toRunning.prepare_cases p ⟨peer, token⟩
          (transportTag w.service.config.codec token peer) payload draws fresh with
          ⟨e, r, prepared, -⟩ | ⟨response, r, prepared, -⟩
        · rw [prepared] at mem
          exact steady.tags one mem
        · rw [prepared] at mem
          rcases List.mem_append.mp mem with old | new
          · exact steady.tags one old
          · rw [List.mem_singleton.mp new, steady.configured]
      | message token query body | close token query body =>
        cases called
        exact steady.tags one mem
      | keyRequest | key _ | reply _ _ _ => cases called

theorem Steady.settle (steady : Steady config w) (now index : Nat) (delivery : Delivery) :
    Steady config (w.settle now index delivery).2 := by
  have call := settle_toRunning .standard w now index delivery
  obtain ⟨r, service⟩ := Running.step_service .standard w.toRunning (.settle now index delivery)
  refine ⟨by rw [call, service]; exact steady.configured,
    call ▸ steady.running.settle now index delivery, ?_⟩
  rw [call, Running.step]
  intro one mem
  rcases w.toRunning.settle_cases now index delivery with
    ⟨-, settled⟩ | ⟨_, e, r, -, settled, -⟩ | ⟨_, r, -, -, settled, -⟩
  · rw [settled] at mem
    exact steady.tags one mem
  · rw [settled] at mem
    exact steady.tags one (List.mem_of_mem_eraseIdx mem)
  · rw [settled] at mem
    exact steady.tags one (List.mem_of_mem_eraseIdx mem)

theorem Steady.expire (steady : Steady config w) (now : Nat) : Steady config (w.expire now) :=
  ⟨steady.configured, steady.running.step .standard (.expire now), steady.tags⟩

/-! ### Runs -/

/-- What happens to a server: it gets a datagram, with the random numbers and the ephemeral key that
serving it may take, a response was handed to the socket, or idle channels are looked for. -/
inductive Event
  | datagram (now : Nat) (peer : Endpoint) (octets : Bytes) (draws : Nat → Nat) (fresh : Bytes32)
  | settle (now index : Nat) (delivery : Delivery)
  | expire (now : Nat)

def step (p : Primitives) (w : Hosting) : Event → Hosting
  | .datagram now peer octets draws fresh => (w.receive p now peer octets draws fresh).2
  | .settle now index delivery => (w.settle now index delivery).2
  | .expire now => w.expire now

/-- The frame that an event makes the server hand to its socket. -/
def handed (p : Primitives) (w : Hosting) : Event → Option Outgoing
  | .datagram now peer octets draws fresh => (w.receive p now peer octets draws fresh).1
  | .settle now index delivery => (w.settle now index delivery).1
  | .expire _ => none

/-- What events lead to, one after the other, from a server that has just started. -/
inductive Reachable (p : Primitives) (config : Config) (key : Option StaticKey)
    (handler : Bytes → Bytes) : Hosting → Prop
  | start {service : Service} (made : Service.new config key handler = .ok service) :
      Reachable p config key handler ⟨⟨service, []⟩, []⟩
  | step {w : Hosting} (reached : Reachable p config key handler w) (event : Event) :
      Reachable p config key handler (w.step p event)

variable {key : Option StaticKey} {handler : Bytes → Bytes}

/-- Getting a datagram changes no more of the service than its registry. -/
theorem receive_service (p : Primitives) (w : Hosting) (now : Nat) (peer : Endpoint)
    (octets : Bytes) (draws : Nat → Nat) (fresh : Bytes32) :
    ∃ r, (w.receive p now peer octets draws fresh).2.service =
      { w.service with registry := r } := by
  cases decoded : Frame.decode octets with
  | error e => exact ⟨_, by rw [receive_of_malformed decoded]⟩
  | ok frame =>
    rw [receive_toRunning decoded]
    cases callOf w.service.config.codec now peer draws fresh frame with
    | none => exact ⟨_, rfl⟩
    | some event => exact Running.step_service p w.toRunning event

theorem settle_service (w : Hosting) (now index : Nat) (delivery : Delivery) :
    ∃ r, (w.settle now index delivery).2.service = { w.service with registry := r } := by
  rw [settle_toRunning .standard]
  exact Running.step_service .standard w.toRunning (.settle now index delivery)

/-- In every run the server has what it has started with, and what was found to be admissible. -/
structure Started (config : Config) (key : Option StaticKey) (handler : Bytes → Bytes)
    (w : Hosting) : Prop where
  valid : config.validate = .ok ()
  keyed : config.pattern.usesResponderStatic = true → key ≠ none
  key : w.service.key = key
  handler : w.service.handler = handler

theorem Started.of_service {v : Hosting} (started : Started config key handler w)
    (service : ∃ r, v.service = { w.service with registry := r }) :
    Started config key handler v := by
  obtain ⟨r, service⟩ := service
  exact ⟨started.valid, started.keyed, by rw [service]; exact started.key,
    by rw [service]; exact started.handler⟩

theorem Reachable.started (reached : Reachable p config key handler w) :
    Steady config w ∧ Started config key handler w := by
  induction reached with
  | start made =>
    obtain ⟨rfl, valid, keyed⟩ := World.service_new_ok made
    exact ⟨steady_start rfl (named_new _), valid, keyed, rfl, rfl⟩
  | @step w _ event ih =>
    obtain ⟨steady, started⟩ := ih
    cases event with
    | datagram now peer octets draws fresh =>
      exact ⟨steady.receive p now peer octets draws fresh,
        started.of_service (receive_service p w now peer octets draws fresh)⟩
    | settle now index delivery =>
      exact ⟨steady.settle now index delivery,
        started.of_service (settle_service w now index delivery)⟩
    | expire now => exact ⟨steady.expire now, started.of_service ⟨_, rfl⟩⟩

/-- Every channel numbers messages in the way that the server is configured for. -/
theorem Reachable.inMode (reached : Reachable p config key handler w) :
    InMode config.nonceMode w.service.registry := by
  induction reached with
  | start made =>
    obtain ⟨rfl, -, -⟩ := World.service_new_ok made
    exact inMode_new _ _
  | @step w before event inMode =>
    have steady := before.started.1
    have called : ∀ call, InMode config.nonceMode (w.toRunning.step p call).service.registry := by
      intro call
      rw [← steady.configured] at inMode ⊢
      exact steady.running.inMode p call inMode
    cases event with
    | datagram now peer octets draws fresh =>
      rw [Hosting.step]
      cases decoded : Frame.decode octets with
      | error e => rwa [receive_of_malformed decoded]
      | ok frame =>
        rw [receive_toRunning decoded]
        cases callOf w.service.config.codec now peer draws fresh frame with
        | none => exact inMode
        | some call => exact called call
    | settle now index delivery =>
      rw [Hosting.step, settle_toRunning p]
      exact called _
    | expire now => exact called (.expire now)

end Hosting

end SecureChannel
