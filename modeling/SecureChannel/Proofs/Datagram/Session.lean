import SecureChannel.Proofs.Datagram.Caller
import SecureChannel.Proofs.Datagram.Endpoints
import SecureChannel.Proofs.Datagram.Hosting
import SecureChannel.Proofs.Datagram.Requests
import SecureChannel.Proofs.Service.Links

/-!
# Sessions of a client of datagrams

A `Session` is a client of datagrams and its server, with a network in between that delivers every
datagram once, in order and as it was sent. So each call is one whole exchange: the request, what
the server does with it, and the answer. The sockets of both ends may refuse a frame, and what is
longer than either side reads is not read. A handshake is settled some time after its response was
sent, and calls may come in between.

Under some codecs the endpoint of a client is the name of its channel. There a handshake takes the
name away from the channel before, which the client then does not use any more.

Not every channel can be used to the end. `doubtful` keeps the names of those whose two ends may be
out of step: the channel was used before its handshake was settled, or it has lost a message under
implicit nonces, or its name is that of another handshake or channel, too.
-/

namespace SecureChannel

open Registry DatagramServer

/-- Whether all channels of a peer would have one name. -/
def Codec.onePerPeer : Codec → Bool
  | query | routing => true
  | tokenReuse | envelope => false

structure Session extends Caller, Hosting where
  /-- Where the server sees the client. -/
  peer : Endpoint
  /-- The datagrams that have come in and were not looked at. -/
  inbox : List Bytes
  doubtful : List ChannelId

def Arrival.isFrame : Arrival → Bool
  | .frame _ => true
  | .failed _ | .none => false

def Hosting.pending (w : Hosting) (id : ChannelId) : List (Unsettled Asker) :=
  w.unsettled.filter fun one => one.response.naming.id = id

/-- Settles a handshake at once, if its response has not left. -/
def Hosting.unsent (w : Hosting) (now index : Nat) (delivery : Delivery) :
    Option Outgoing × Hosting :=
  if delivery = .delivered then (none, w) else w.settle now index delivery

namespace Session

/-- What is drawn at random during a call, when the server gets the request, and what the sockets of
the client and of the server do with a frame. -/
structure Moment where
  token : Bytes
  sized : token.length = tokenLength
  now : Nat
  draws : Nat → Nat
  fresh : Bytes32
  up : Frame → Option IoError
  down : Frame → Delivery

def Moment.Reaches (m : Moment) (frame : Frame) : Prop :=
  m.up frame = none ∧ frame.fits = true

def Moment.Returns (m : Moment) (frame : Frame) : Prop :=
  m.down frame = .delivered ∧ frame.fits = true

/-- Both sockets take every frame that fits a datagram. -/
def Moment.Delivers (m : Moment) : Prop :=
  ∀ frame : Frame, frame.fits = true → m.Reaches frame ∧ m.Returns frame

instance (m : Moment) (frame : Frame) : Decidable (m.Returns frame) :=
  inferInstanceAs (Decidable (_ ∧ _))

/-- A request and what comes of it. A response that does not leave is settled at once. -/
def exchange (p : Primitives) (w : Session) (m : Moment) (request : Request) : Arrival × Session :=
  match m.up request.frame with
  | some e => (.failed e, w)
  | none =>
      if request.frame.fits then
        let (handed, got) :=
          w.toHosting.receive p m.now w.peer request.frame.encode m.draws m.fresh
        let (refusal, hosting) := got.unsent m.now w.unsettled.length
          (handed.elim .delivered fun out => m.down out.frame)
        let mine := (handed.toList ++ refusal.toList).filter fun out =>
          out.peer = w.peer ∧ m.Returns out.frame
        let (answer, inbox) := request.awaitAnswer (w.inbox ++ mine.map (·.frame.encode))
        (answer.elim .none .frame, { w with toHosting := hosting, inbox := inbox })
      else (.none, w)

/-- The channels that keep their names when there is another one. -/
def kept (w : Session) : List ClientChannel :=
  if w.client.codec.onePerPeer then [] else w.channels

def channelsAfter (w : Session) (caller : Caller) :
    Except ChannelError Returned → List ClientChannel
  | .ok (.channel channel) => w.kept ++ [channel]
  | _ => caller.channels

/-- The names in doubt when there is a channel of the given name: that one only if something else
has it, too. -/
def doubtsOnJoin (w : Session) (id : ChannelId) : List ChannelId :=
  if (w.pending id).isEmpty && w.kept.all (·.id ≠ id) then w.doubtful.filter (· ≠ id)
  else id :: w.doubtful

/-- The names in doubt when a message was sent on a channel of the given name. -/
def doubtsOnSend (w : Session) (id : ChannelId) (arrival : Arrival) : List ChannelId :=
  if (w.pending id).isEmpty && (arrival.isFrame || w.service.config.nonceMode.isExplicit) then
    w.doubtful
  else id :: w.doubtful

def doubts (w : Session) (wish : Wish) (arrival : Arrival) (answer : Except ChannelError Returned)
    (after : Session) : List ChannelId :=
  match wish, answer with
  | .connect _, .ok (.channel channel) => w.doubtsOnJoin channel.id
  | .connect _, _ =>
      -- The server may have a handshake that the client has given up.
      w.doubtful ++ (after.unsettled.drop w.unsettled.length).map (·.response.naming.id)
  | .send index _, _ =>
      match w.channels[index]? with
      | none => w.doubtful
      | some channel => w.doubtsOnSend channel.id arrival
  | _, _ => w.doubtful

/-- A call of the client, from start to end. -/
def call (p : Primitives) (w : Session) (m : Moment) (wish : Wish) :
    Except ChannelError Returned × Session :=
  match w.toCaller.ask p w.service.config m.token wish with
  | (.error e, caller) => (.error e, { w with toCaller := caller })
  | (.ok call, caller) =>
      let (arrival, after) := exchange p { w with toCaller := caller } m call.request
      let (answer, caller) := caller.finish p call.purpose arrival
      (answer, { after with
        toCaller := { caller with channels := w.channelsAfter caller answer }
        doubtful := w.doubts wish arrival answer after })

/-- The server settles a handshake whose response has left. -/
def settle (w : Session) (now index : Nat) : Session :=
  let (refusal, hosting) := w.toHosting.settle now index .delivered
  let mine := refusal.filter fun out => out.peer = w.peer
  { w with toHosting := hosting, inbox := w.inbox ++ mine.toList.map (·.frame.encode) }

variable {p : Primitives} {w : Session} {m : Moment} {request : Request}

/-! ### One exchange -/

theorem exchange_lost (lost : ¬ m.Reaches request.frame) :
    ∃ arrival, w.exchange p m request = (arrival, w) ∧ arrival.isFrame = false := by
  cases up : m.up request.frame with
  | some e => exact ⟨.failed e, by simp only [exchange, up], rfl⟩
  | none =>
    have long : request.frame.fits = false := by simpa [Moment.Reaches, up] using lost
    exact ⟨.none, by simp [exchange, up, long], rfl⟩

/-- A frame that answers a request is the answer, if it gets through. -/
theorem awaitAnswer_of_answers {frame : Frame} (token : request.frame.token? = request.token)
    (answers : Answers request.frame frame) :
    request.awaitAnswer [frame.encode] = (some frame, []) := by
  have accepted : request.token = none ∨ frame.token? = request.token := by
    cases answers with
    | key asks _ =>
      rw [asks] at token
      exact .inl token.symm
    | reply _ _ => exact .inr token
  simp [Request.awaitAnswer, Request.accepts, Frame.decode_encode, accepted]

section Exchange

variable {out : Outgoing} {got : Hosting}

theorem exchange_answered (inbox : w.inbox = []) (reaches : m.Reaches request.frame)
    (token : request.frame.token? = request.token)
    (received : w.toHosting.receive p m.now w.peer request.frame.encode m.draws m.fresh =
      (some out, got))
    (left : m.down out.frame = .delivered ∨ got.unsettled.length = w.unsettled.length) :
    w.exchange p m request =
      (if m.Returns out.frame then .frame out.frame else .none, { w with toHosting := got }) := by
  obtain ⟨back, decoded, read, handed⟩ :=
    Hosting.answers_of_receive (congrArg Prod.fst received)
  rw [Frame.decode_encode] at read
  obtain rfl := Except.ok.inj read
  have answer := awaitAnswer_of_answers token (answers_of_dispatch handed)
  have settled : got.unsent m.now w.unsettled.length (m.down out.frame) = (none, got) := by
    rw [Hosting.unsent]
    split
    · rfl
    · next failed =>
      have length := left.resolve_left failed
      simp [Hosting.settle, Running.settle, ← length]
  simp only [exchange, reaches.1, reaches.2, if_true, received, Option.elim_some, settled,
    inbox, List.nil_append, Option.toList_some, Option.toList_none, List.append_nil]
  by_cases returns : m.Returns out.frame
  · simp [back, returns, answer]
  · simp [returns, Request.awaitAnswer]

/-- A response that does not leave is settled at once. All that the client may be told is that there
was an error. -/
theorem exchange_unsent (inbox : w.inbox = []) (reaches : m.Reaches request.frame)
    (token : request.frame.token? = request.token)
    (received : w.toHosting.receive p m.now w.peer request.frame.encode m.draws m.fresh =
      (some out, got))
    (failed : m.down out.frame ≠ .delivered) :
    ∃ arrival, w.exchange p m request = (arrival,
        { w with toHosting := (got.settle m.now w.unsettled.length (m.down out.frame)).2 }) ∧
      ∀ frame, arrival = .frame frame → ∃ e, frame = replyTo request.token (.error e) := by
  have unreturned : ¬ m.Returns out.frame := fun returns => failed returns.1
  rcases settled : got.settle m.now w.unsettled.length (m.down out.frame) with ⟨refusal, hosting⟩
  have handed : got.unsent m.now w.unsettled.length (m.down out.frame) = (refusal, hosting) := by
    rw [Hosting.unsent, if_neg failed, settled]
  simp only [exchange, reaches.1, reaches.2, if_true, received, Option.elim_some, handed,
    inbox, List.nil_append, Option.toList_some, List.singleton_append, List.filter_cons, unreturned,
    and_false, decide_false, Bool.false_eq_true, if_false]
  cases refusal with
  | none => exact ⟨.none, by simp [Request.awaitAnswer], by simp⟩
  | some refusal =>
    obtain ⟨one, e, inside, rfl⟩ := Hosting.refusal_of_settle (congrArg Prod.fst settled)
    obtain ⟨decoded, read, asker⟩ := Hosting.asker_of_receive (by rw [received]; exact inside)
    rw [Frame.decode_encode] at read
    obtain rfl := Except.ok.inj read
    rw [asker, token]
    by_cases returns : m.Returns (replyTo request.token (.error e))
    · refine ⟨.frame (replyTo request.token (.error e)), ?_, ?_⟩
      · simp [returns, Request.awaitAnswer_replyTo]
      · rintro frame ⟨⟩
        exact ⟨e, rfl⟩
    · exact ⟨.none, by simp [returns, Request.awaitAnswer], by simp⟩

end Exchange

/-! ### The invariant -/

/-- A channel of a client has a name that can be used, and that was spelled with one of its
tokens where tokens name channels. -/
structure Spelled (config : Config) (c : Caller) (id : ChannelId) : Prop where
  admissible : id.Admissible
  scheme : id.scheme = config.idScheme
  token : ∃ token ∈ c.drawn, Spells c.client.codec c.client.endpoint token id

/-- The other end of a channel is in step, or is what the server will make of a handshake, and
nothing else is to get its name. -/
inductive Keeps (mode : NonceMode) (w : Hosting) (channel : ClientChannel) : Prop
  | linked {h : Handle} {c : Channel} (settled : w.pending channel.id = [])
      (live : w.service.registry.live? channel.id = some h)
      (found : w.service.registry.channel? h = some c) (linked : World.Linked channel c)
  | promised {one : Unsettled Asker} {up down : Bytes32} (alone : w.pending channel.id = [one])
      (mine : channel.pair = .new up down mode) (theirs : one.response.pair = .new down up mode)

structure Sound (p : Primitives) (config : Config) (key : Option Bytes32)
    (handler : Bytes → Bytes) (w : Session) : Prop where
  served : Hosting.Reachable p config (key.map (StaticKey.ofPrivate p)) handler w.toHosting
  codec : w.client.codec = config.codec
  seen : config.codec.requiresTransportId = true → w.peer = w.client.endpoint
  inbox : w.inbox = []
  inMode : w.toCaller.InMode config.nonceMode
  spelled : ∀ channel ∈ w.channels, Spelled config w.toCaller channel.id
  unique : w.channels.Pairwise fun one other => one.id = other.id → one.id ∈ w.doubtful
  keeps : ∀ channel ∈ w.channels, channel.id ∉ w.doubtful →
    Keeps config.nonceMode w.toHosting channel

variable {config : Config} {key : Option Bytes32} {handler : Bytes → Bytes} {hello : Hello}
variable {handshake : ClientHandshake} {pending : PendingHandshake} {channel : ClientChannel}
variable {r : Registry} {id : ChannelId} {mode : NonceMode} {v u : Hosting}

theorem Sound.steady (sound : Sound p config key handler w) : w.toHosting.Steady config :=
  sound.served.started.1

theorem Sound.started (sound : Sound p config key handler w) :
    w.toHosting.Started config (key.map (StaticKey.ofPrivate p)) handler :=
  sound.served.started.2

theorem Sound.tag_eq (sound : Sound p config key handler w) (token : Option Bytes) :
    transportTag w.service.config.codec token w.peer =
      transportTag w.client.codec token w.client.endpoint := by
  rw [sound.steady.configured, sound.codec]
  cases requires : config.codec.requiresTransportId with
  | true => rw [sound.seen requires]
  | false =>
    have envelope : config.codec = .envelope := by
      cases codec : config.codec with
      | envelope => rfl
      | tokenReuse | query | routing => rw [codec] at requires; cases requires
    rw [envelope]
    rfl

/-- The server when no more has changed than its registry. -/
def serving (w : Session) (r : Registry) : Hosting :=
  ⟨⟨{ w.service with registry := r }, w.unsettled⟩, w.origins⟩

/-- What is about no channel keeps all of them. -/
theorem Keeps.of_live (keeps : Keeps mode v channel)
    (pending : u.pending channel.id = v.pending channel.id)
    (live : u.service.registry.live? channel.id = v.service.registry.live? channel.id)
    (channels : u.service.registry.channels = v.service.registry.channels) :
    Keeps mode u channel := by
  cases keeps with
  | linked settled live' found linked =>
    exact .linked (pending.trans settled) (live.trans live')
      (by rwa [Registry.channel?, channels]) linked
  | promised alone mine theirs => exact .promised (pending.trans alone) mine theirs

/-- What is about another name keeps a channel. -/
theorem Keeps.of_confined (keeps : Keeps mode v channel) (ne : id ≠ channel.id)
    (pending : u.pending channel.id = v.pending channel.id)
    (confined : Confined id v.service.registry u.service.registry) : Keeps mode u channel := by
  cases keeps with
  | linked settled live found linked =>
    refine .linked (pending.trans settled) ?_ (confined.kept _ _ found (linked.name ▸ ne)) linked
    rw [live?_eq_some_iff] at live ⊢
    rw [confined.slots _ ne, live]
  | promised alone mine theirs => exact .promised (pending.trans alone) mine theirs

theorem Spelled.grow {c c' : Caller} (spelled : Spelled config c id)
    (endpoint : c'.client.endpoint = c.client.endpoint) (codec : c'.client.codec = c.client.codec)
    (drawn : c.drawn ⊆ c'.drawn) : Spelled config c' id := by
  obtain ⟨token, mem, spells⟩ := spelled.token
  refine ⟨spelled.admissible, spelled.scheme, token, drawn mem, ?_⟩
  rwa [endpoint, codec]

/-- To the server a call is a datagram, and the failure to send a response. -/
theorem Sound.served_call (sound : Sound p config key handler w) (m : Moment) (wish : Wish) :
    Hosting.Reachable p config (key.map (StaticKey.ofPrivate p)) handler
      (w.call p m wish).2.toHosting := by
  have exchanged : ∀ (caller : Caller) request, Hosting.Reachable p config
      (key.map (StaticKey.ofPrivate p)) handler
      (exchange p { w with toCaller := caller } m request).2.toHosting := by
    intro caller request
    rw [exchange]
    split
    · exact sound.served
    · split
      · have got := sound.served.step (.datagram m.now w.peer request.frame.encode m.draws m.fresh)
        simp only [Hosting.unsent]
        split
        · exact got
        · exact got.step (.settle m.now w.unsettled.length _)
      · exact sound.served
  rw [call]
  rcases w.toCaller.ask p w.service.config m.token wish with ⟨e | call, caller⟩
  · exact sound.served
  · exact exchanged caller call.request

end Session

end SecureChannel
