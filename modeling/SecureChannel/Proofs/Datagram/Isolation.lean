import SecureChannel.Proofs.Codec.RoundTrip
import SecureChannel.Proofs.Datagram.Endpoints
import SecureChannel.Proofs.Datagram.Hosting
import SecureChannel.Proofs.Service.World

/-!
# What a peer can do to the channels of others

Where the transport names the peers, a channel belongs to the peer that has shaken hands, and a
datagram from another peer leaves it alone: the channel is not found, not replaced, not moved on and
not removed. `isolated` says so for every run of a server of datagrams and any two peers, with one
exception: under token reuse, peers whose tags are `Glued` have one name. Then a handshake from the
one takes the name of the other's channel away, which `taken_by_other_peer` shows.
-/

namespace SecureChannel

open Registry Endpoint

namespace Hosting

variable {p : Primitives} {config : Config} {key : Option StaticKey} {handler : Bytes → Bytes}
variable {w : Hosting} {s t : Service} {now : Nat} {peer : Endpoint} {draws : Nat → Nat}
variable {fresh : Bytes32} {id : ChannelId} {h : Handle} {octets : Bytes}

/-! ### Names and tags -/

theorem tag_of_peerId {tag : Option Bytes} (known : PendingHandshake.peerId tag = .ok id) :
    ∃ octets, tag = some octets ∧ id = .transport octets := by
  obtain ⟨octets, rfl, read⟩ := PendingHandshake.peerId_ok_iff.mp known
  exact ⟨octets, rfl, (ChannelId.decode_transport_iff.mp read).1⟩

/-- A message is for the channel that its tag names. -/
theorem peerId_of_decode {codec : Codec} (named : codec.requiresTransportId = true) {m : Message}
    {ciphertext : Bytes} (decoded : codec.decode .transport m = .ok (id, ciphertext)) :
    PendingHandshake.peerId m.tag = .ok id := by
  obtain ⟨octets, tag, read⟩ := Codec.idOfTag_ok_iff.mp (Codec.idOfTag_of_decode named decoded)
  rw [tag, PendingHandshake.peerId_ok_iff]
  exact ⟨octets, rfl, read⟩

/-! ### What a datagram is about -/

/-- The name that the transport gives to the frames of a peer with the given token. -/
def nameOf (codec : Codec) (peer : Endpoint) (token : Option Bytes) :
    Except ChannelError ChannelId :=
  PendingHandshake.peerId (transportTag codec token peer)

/-- All that a frame does at once is about the name of its peer, if it has one. -/
theorem receive_cases (p : Primitives) (codec : w.service.config.codec.requiresTransportId = true)
    (scheme : w.service.config.idScheme = .transport) (named : Named w.service.registry) (now : Nat)
    (peer : Endpoint) {frame : Frame} (decoded : Frame.decode octets = .ok frame)
    (draws : Nat → Nat) (fresh : Bytes32) :
    (∀ id, Confined id w.service.registry
      (w.receive p now peer octets draws fresh).2.service.registry) ∨
    ∃ id, nameOf w.service.config.codec peer frame.token? = .ok id ∧ Confined id w.service.registry
      (w.receive p now peer octets draws fresh).2.service.registry := by
  have about : ∀ {token query body t}, (∃ e, w.service.config.codec.decode w.service.config.idScheme
        (DatagramServer.inbound w.service.config.codec peer token query body) = .error e ∧
          t = w.service) ∨
      (∃ id ciphertext, w.service.config.codec.decode w.service.config.idScheme
        (DatagramServer.inbound w.service.config.codec peer token query body) =
          .ok (id, ciphertext) ∧ Confined id w.service.registry t.registry) →
      (∀ id, Confined id w.service.registry t.registry) ∨ ∃ id,
        nameOf w.service.config.codec peer token = .ok id ∧
          Confined id w.service.registry t.registry := by
    rintro token query body t (⟨e, -, rfl⟩ | ⟨id, ciphertext, decoded, confined⟩)
    · exact .inl fun id => .refl id _
    · rw [scheme] at decoded
      exact .inr ⟨id, peerId_of_decode codec decoded, confined⟩
  have call := receive_toRunning decoded p w now peer draws fresh
  cases frame with
  | keyRequest | key _ | reply _ _ _ =>
    rw [call]
    exact .inl fun id => .refl id _
  | handshake token request =>
    -- Under the transport scheme nothing is reserved.
    rw [call]
    rcases w.toRunning.prepare_cases p ⟨peer, token⟩
      (transportTag w.service.config.codec token peer) request draws fresh with
      ⟨e, r, prepared, same⟩ | ⟨response, r, prepared, prepares⟩
    · simp only [callOf, Option.elim_some, Running.step, prepared]
      exact .inl fun id => .of_sameTable same
    · simp only [callOf, Option.elim_some, Running.step, prepared]
      rcases prepares.naming with ⟨other, -⟩ | ⟨-, id, -, -, rfl⟩
      · exact absurd scheme other
      · exact .inl fun id => .refl id _
  | message token query body =>
    rw [call]
    exact about (Service.handleMessage_cases p named now _)
  | close token query body =>
    rw [call]
    exact about (Service.handleClose_cases p named now _)

/-! ### The origins of channels -/

/-- A channel has the name of the peer that it comes from. -/
def Belongs (codec : Codec) (r : Registry) (o : Origin) : Prop :=
  ∃ c, r.channel? o.handle = some c ∧ nameOf codec o.peer o.token = .ok c.id

theorem Belongs.evolve {codec : Codec} {r u : Registry} {o : Origin} (belongs : Belongs codec r o)
    (evolves : Evolves r u) : Belongs codec u o := by
  obtain ⟨c, found, name⟩ := belongs
  obtain ⟨d, found', advances⟩ := evolves.channels _ c found
  exact ⟨d, found', by rw [advances.id, name]⟩

structure Sound (config : Config) (w : Hosting) : Prop where
  steady : Steady config w
  scheme : config.idScheme = .transport
  origins : ∀ o ∈ w.origins, Belongs config.codec w.service.registry o

/-- A handshake that waits is for the name of its peer. -/
theorem Sound.naming (sound : Sound config w) {index : Nat} {one : Unsettled Asker}
    (inside : w.unsettled[index]? = some one) :
    nameOf config.codec one.asker.peer one.asker.token = .ok one.response.naming.id := by
  have mem := List.mem_of_getElem? inside
  obtain ⟨id, naming, known⟩ := sound.steady.running.held.taken
    (sound.steady.configured ▸ sound.scheme) one mem
  rw [naming, nameOf, ← sound.steady.tags one mem]
  exact known

theorem Sound.receive (sound : Sound config w) (p : Primitives) (now : Nat) (peer : Endpoint)
    (octets : Bytes) (draws : Nat → Nat) (fresh : Bytes32) :
    Sound config (w.receive p now peer octets draws fresh).2 := by
  refine ⟨sound.steady.receive p now peer octets draws fresh, sound.scheme, ?_⟩
  have evolves : Evolves w.service.registry
      (w.receive p now peer octets draws fresh).2.service.registry := by
    cases decoded : Frame.decode octets with
    | error e =>
      rw [receive_of_malformed decoded]
      exact .refl _
    | ok frame =>
      rw [receive_toRunning decoded]
      cases callOf w.service.config.codec now peer draws fresh frame with
      | none => exact .refl _
      | some event => exact Running.evolves_step p sound.steady.running.named event
  rw [receive_origins]
  exact fun o mem => (sound.origins o mem).evolve evolves

theorem Sound.settle (sound : Sound config w) (now index : Nat) (delivery : Delivery) :
    Sound config (w.settle now index delivery).2 := by
  refine ⟨sound.steady.settle now index delivery, sound.scheme, ?_⟩
  rw [Hosting.settle]
  rcases w.toRunning.settle_cases now index delivery with
    ⟨-, settled⟩ | ⟨one, e, r, -, settled, unreserves⟩ | ⟨one, r, inside, -, settled, opens⟩
  · rw [settled]
    exact sound.origins
  · rw [settled]
    exact fun o mem => (sound.origins o mem).evolve unreserves.evolves
  · rw [settled]
    intro o mem
    rcases List.mem_append.mp mem with old | new
    · exact (sound.origins o old).evolve opens.confined.toEvolves
    · rw [List.mem_singleton.mp new]
      exact ⟨_, opens.channel?, sound.naming inside⟩

theorem Reachable.sound (reached : Reachable p config key handler w)
    (codec : config.codec.requiresTransportId = true) : Sound config w := by
  induction reached with
  | start made =>
    obtain ⟨rfl, valid, -⟩ := World.service_new_ok made
    exact ⟨steady_start rfl (named_new _), (Config.requiresTransportId_iff_of_valid valid).mp codec,
      by simp⟩
  | @step w _ event sound =>
    cases event with
    | datagram now peer octets draws fresh => exact sound.receive p now peer octets draws fresh
    | settle now index delivery => exact sound.settle now index delivery
    | expire now =>
      have evolves := evolves_expireIdle w.service.registry now
      exact ⟨sound.steady.expire now, sound.scheme,
        fun o mem => (sound.origins o mem).evolve evolves⟩

/-! ### Channels of other peers -/

/-- Nothing has happened to a channel, and it can be found where it could be found before. -/
structure Untouched (r u : Registry) (h : Handle) : Prop where
  channel : u.channel? h = r.channel? h
  live : ∀ id, u.live? id = some h ↔ r.live? id = some h

/-- What is about one name does not touch a channel of another. -/
theorem untouched_of_confined {r u : Registry} (named : Named r) {c : Channel}
    (found : r.channel? h = some c) (other : id ≠ c.id) (confined : Confined id r u) :
    Untouched r u h := by
  have kept := confined.kept h c found other
  refine ⟨kept.trans found.symm, ?_⟩
  intro name
  by_cases same : id = name
  · -- The name stands for the channel neither before nor afterwards.
    subst same
    constructor
    · intro live
      obtain ⟨d, there, name⟩ := confined.named named id h live
      obtain rfl : c = d := Option.some.inj (kept.symm.trans there)
      exact absurd name.symm other
    · intro live
      obtain ⟨d, there, name⟩ := named id h live
      obtain rfl : c = d := Option.some.inj (found.symm.trans there)
      exact absurd name.symm other
  · rw [live?_eq_some_iff, live?_eq_some_iff, confined.slots name same]

/-- Two peers have different names unless they are glued together. -/
theorem nameOf_ne {codec : Codec} (named : codec.requiresTransportId = true) {a b : IPv4}
    {x y : UInt16} (differ : v4 a x ≠ v4 b y) {mine theirs : Option Bytes}
    (apart : ∀ s t, mine = some s → theirs = some t → ¬ Glued codec a x s b y t)
    {id id' : ChannelId} (one : nameOf codec (v4 a x) mine = .ok id)
    (other : nameOf codec (v4 b y) theirs = .ok id') : id ≠ id' := by
  obtain ⟨octets, tag, rfl⟩ := tag_of_peerId one
  obtain ⟨octets', tag', rfl⟩ := tag_of_peerId other
  intro same
  have same : octets = octets' := by simpa using same
  subst same
  -- Only under token reuse do the tokens matter.
  have equal : ∀ s t, transportTag codec (some s) (v4 a x) = some octets →
      transportTag codec (some t) (v4 b y) = some octets → Glued codec a x s b y t := by
    intro s t first second
    exact (transportTag_eq_iff named differ s t).mp (first.trans second.symm)
  cases codec with
  | envelope => exact absurd named (by decide)
  | query => exact absurd (equal [] [] tag tag').1 (by decide)
  | routing => exact absurd (equal [] [] tag tag').1 (by decide)
  | tokenReuse =>
    cases mine with
    | none => simp [transportTag] at tag
    | some s =>
      cases theirs with
      | none => simp [transportTag] at tag'
      | some t => exact apart s t rfl rfl (equal s t tag tag')

/-- What was resolved is live under the name of the peer. -/
theorem live_of_resolve (codec : s.config.codec.requiresTransportId = true)
    (scheme : s.config.idScheme = .transport) {token : Option Bytes} {query : Option String}
    {body ciphertext : Bytes} (resolved : (s.resolve now
      (DatagramServer.inbound s.config.codec peer token query body)).1 = .ok (id, h, ciphertext)) :
    nameOf s.config.codec peer token = .ok id ∧ s.registry.live? id = some h := by
  rw [Service.resolve, scheme] at resolved
  split at resolved
  · cases resolved
  · next decoded =>
    split at resolved
    · cases resolved
    · next answer =>
      cases resolved
      rw [lookup] at answer
      split at answer
      · next live =>
        cases answer
        exact ⟨peerId_of_decode codec decoded, live⟩
      · cases answer

variable {a b : IPv4} {x y : UInt16} {o : Origin}

/-- What is about no name, or about another, does not touch the channel of a peer. -/
theorem Sound.untouched (sound : Sound config w) (mem : o ∈ w.origins) {u : Registry}
    (other : (∀ id, Confined id w.service.registry u) ∨ ∃ id, Confined id w.service.registry u ∧
      ∀ own, nameOf config.codec o.peer o.token = .ok own → id ≠ own) :
    Untouched w.service.registry u o.handle := by
  obtain ⟨c, found, name⟩ := sound.origins o mem
  rcases other with confined | ⟨id, confined, apart⟩
  · refine untouched_of_confined sound.steady.running.named found ?_ (confined (.short 0))
    obtain ⟨octets, -, same⟩ := tag_of_peerId name
    rw [same]
    simp
  · exact untouched_of_confined sound.steady.running.named found (apart c.id name) confined

theorem Sound.untouched_receive (sound : Sound config w)
    (codec : config.codec.requiresTransportId = true) (differ : v4 a x ≠ v4 b y)
    (mem : o ∈ w.origins) (from_ : o.peer = v4 b y)
    (apart : ∀ frame s t, Frame.decode octets = .ok frame → frame.token? = some s →
      o.token = some t → ¬ Glued config.codec a x s b y t)
    (p : Primitives) (now : Nat) (draws : Nat → Nat) (fresh : Bytes32) :
    Untouched w.service.registry (w.receive p now (v4 a x) octets draws fresh).2.service.registry
      o.handle := by
  cases decoded : Frame.decode octets with
  | error e =>
    rw [receive_of_malformed decoded]
    exact ⟨rfl, fun _ => Iff.rfl⟩
  | ok frame =>
    have cases := receive_cases (w := w) p (sound.steady.configured ▸ codec)
      (sound.steady.configured ▸ sound.scheme) sound.steady.running.named now (v4 a x) decoded draws
      fresh
    rw [sound.steady.configured] at cases
    refine sound.untouched mem (cases.imp_right ?_)
    rintro ⟨id, one, confined⟩
    refine ⟨id, confined, fun own name => ?_⟩
    rw [from_] at name
    exact nameOf_ne codec differ (fun s t => apart frame s t decoded) one name

theorem Sound.untouched_settle (sound : Sound config w)
    (codec : config.codec.requiresTransportId = true) (differ : v4 a x ≠ v4 b y)
    (mem : o ∈ w.origins) (from_ : o.peer = v4 b y) {index : Nat} {one : Unsettled Asker}
    (inside : w.unsettled[index]? = some one) (peer : one.asker.peer = v4 a x)
    (apart : ∀ s t, one.asker.token = some s → o.token = some t → ¬ Glued config.codec a x s b y t)
    (now : Nat) (delivery : Delivery) :
    Untouched w.service.registry (w.settle now index delivery).2.service.registry o.handle := by
  have known := sound.naming inside
  rw [peer] at known
  rcases w.toRunning.settle_cases now index delivery with
    ⟨none, -⟩ | ⟨two, e, r, -, settled, unreserves⟩ | ⟨two, r, inside', -, settled, opens⟩
  · rw [none] at inside
    cases inside
  · simp only [Hosting.settle, settled]
    refine ⟨by simp only [channel?, unreserves.channels], ?_⟩
    intro id
    rw [unreserves.live]
  · obtain rfl := Option.some.inj (inside.symm.trans inside')
    simp only [Hosting.settle, settled]
    refine sound.untouched mem (.inr ⟨_, opens.confined, fun own name => ?_⟩)
    rw [from_] at name
    exact nameOf_ne codec differ apart known name

theorem Untouched.trans {r u v : Registry} (first : Untouched r u h) (second : Untouched u v h) :
    Untouched r v h :=
  ⟨second.channel.trans first.channel, fun id => (second.live id).trans (first.live id)⟩

/-- Serving a datagram from start to end is getting it, and settling what came of it. -/
theorem Sound.untouched_handleDatagram (sound : Sound config w)
    (codec : config.codec.requiresTransportId = true) (differ : v4 a x ≠ v4 b y)
    (mem : o ∈ w.origins) (from_ : o.peer = v4 b y)
    (apart : ∀ frame s t, Frame.decode octets = .ok frame → frame.token? = some s →
      o.token = some t → ¬ Glued config.codec a x s b y t)
    (p : Primitives) (now : Nat) (socket : Frame → Delivery) (draws : Nat → Nat) (fresh : Bytes32) :
    Untouched w.service.registry (DatagramServer.handleDatagram p w.service now (v4 a x) socket
      octets draws fresh).2.registry o.handle := by
  have first := sound.untouched_receive codec differ mem from_ apart p now draws fresh
  have received := sound.receive p now (v4 a x) octets draws fresh
  rw [handleDatagram_eq]
  cases inside :
      (w.receive p now (v4 a x) octets draws fresh).2.unsettled[w.unsettled.length]? with
  | none =>
    simp only [Hosting.settle, Running.settle, inside]
    exact first
  | some one =>
    obtain ⟨frame, decoded, asked⟩ := asker_of_receive inside
    refine first.trans (received.untouched_settle codec differ (by rwa [receive_origins]) from_
      inside (congrArg Asker.peer asked) ?_ now _)
    rw [asked]
    exact fun s t => apart frame s t decoded

/-- Two different IPv4 peers have one tag only if they are glued together, and where they are not,
no datagram of the one finds, replaces, moves on or removes a channel of the other, neither when the
server gets it nor when it settles a handshake. -/
theorem isolated (reached : Reachable p config key handler w)
    (codec : config.codec.requiresTransportId = true) {a b : IPv4} {x y : UInt16}
    (differ : v4 a x ≠ v4 b y) :
    (∀ s t, transportTag config.codec (some s) (v4 a x) =
      transportTag config.codec (some t) (v4 b y) ↔ Glued config.codec a x s b y t) ∧
    ∀ o ∈ w.origins, o.peer = v4 b y →
      (∀ octets, (∀ frame s t, Frame.decode octets = .ok frame → frame.token? = some s →
          o.token = some t → ¬ Glued config.codec a x s b y t) →
        (∀ now socket draws fresh, Untouched w.service.registry
          (DatagramServer.handleDatagram p w.service now (v4 a x) socket octets draws
            fresh).2.registry o.handle) ∧
        (∀ now draws fresh, Untouched w.service.registry
          (w.receive p now (v4 a x) octets draws fresh).2.service.registry o.handle) ∧
        ∀ frame now query body id h ciphertext, Frame.decode octets = .ok frame →
          (w.service.resolve now (DatagramServer.inbound config.codec (v4 a x) frame.token? query
            body)).1 = .ok (id, h, ciphertext) → h ≠ o.handle) ∧
      ∀ index one, w.unsettled[index]? = some one → one.asker.peer = v4 a x →
        (∀ s t, one.asker.token = some s → o.token = some t →
          ¬ Glued config.codec a x s b y t) →
        ∀ now delivery, Untouched w.service.registry
          (w.settle now index delivery).2.service.registry o.handle := by
  have sound := reached.sound codec
  refine ⟨transportTag_eq_iff codec differ, ?_⟩
  intro o mem from_
  refine ⟨?_, ?_⟩
  · intro octets apart
    refine ⟨fun now socket draws fresh =>
        sound.untouched_handleDatagram codec differ mem from_ apart p now socket draws fresh,
      fun now draws fresh =>
        sound.untouched_receive codec differ mem from_ apart p now draws fresh, ?_⟩
    rintro frame now query body id h ciphertext decoded resolved rfl
    obtain ⟨c, found, name⟩ := sound.origins o mem
    obtain rfl := sound.steady.configured
    rw [from_] at name
    obtain ⟨one, live⟩ := live_of_resolve codec sound.scheme resolved
    obtain ⟨d, there, same⟩ := sound.steady.running.named id _ live
    obtain rfl : c = d := Option.some.inj (found.symm.trans there)
    exact nameOf_ne codec differ (fun s t => apart frame s t decoded) one name same.symm
  · intro index one inside peer apart now delivery
    exact sound.untouched_settle codec differ mem from_ inside peer apart now delivery

/-! ### Two peers on one address -/

/-- The port of the one peer, without the last digit of the other. -/
def shorter : Endpoint := v4 ⟨10, 0, 0, 1⟩ 568

/-- The port of the other peer. -/
def longer : Endpoint := v4 ⟨10, 0, 0, 1⟩ 5683

def digits : Bytes := [49, 50, 51, 52, 53, 54, 55, 56]

/-- The written form of the peer with the longer port, and the digits. -/
def sharedTag : Bytes :=
  [49, 48, 46, 48, 46, 48, 46, 49, 58, 53, 54, 56, 51, 49, 50, 51, 52, 53, 54, 55, 56]

/-- The tag of the other peer with its token, and of the one with the missing digit in front of the
same token. -/
theorem transportTag_shared :
    transportTag .tokenReuse (some digits) longer = some sharedTag ∧
      transportTag .tokenReuse (some (51 :: digits)) shorter = some sharedTag := by
  decide +kernel

/-- What an honest handshake leads to if the peer and the token make up the shared tag. -/
theorem settle_receive_shared (configured : w.service.config = .peerNamed .tokenReuse)
    (unkeyed : w.service.key = none) (pending : w.unsettled = []) {token : Bytes}
    (known : transportTag .tokenReuse (some token) peer = some sharedTag)
    (room : w.service.registry.slots[ChannelId.transport sharedTag]? = none →
      w.service.registry.isFull = false) :
    ∃ request pair out v, w.receive .standard 0 peer (Frame.handshake (some token) request).encode
        (fun _ => 0) (.ofNatLE 9) = (some out, v) ∧
      v.settle 0 0 .delivered =
        (none, ⟨⟨{ w.service with registry :=
            (w.service.registry.setLive (.transport sharedTag) pair 0).2 }, []⟩,
          w.origins ++ [⟨⟨peer, some token⟩, ⟨w.service.registry.channels.size⟩⟩]⟩) := by
  obtain ⟨request, response, up, down, welcomes⟩ := Service.welcomes_standard (s := w.service)
    (by rw [configured]; rfl) (by rw [configured]; rfl) unkeyed
    (rfl : ChannelId.decode .transport sharedTag = .ok (.transport sharedTag))
  have received := receive_welcomes welcomes (by rw [configured]; exact known) 0 fun _ => 0
  rw [pending, List.nil_append] at received
  have settled : Hosting.settle ⟨⟨w.service, [⟨⟨peer, some token⟩, some sharedTag, response,
      .taken (.transport sharedTag), .new down up w.service.config.nonceMode,
      w.service.config.handshakeTimeout⟩]⟩, w.origins⟩ 0 0 .delivered = _ :=
    settle_delivered rfl room 0
  exact ⟨request, .new down up w.service.config.nonceMode, _, _, received, settled⟩

theorem reachable_longer : ∃ w pair,
    Reachable .standard (.peerNamed .tokenReuse) none List.reverse w ∧
    w.unsettled = [] ∧ w.origins = [⟨⟨longer, some digits⟩, ⟨0⟩⟩] ∧
    w.service = { Service.reverser .tokenReuse with registry :=
      ((Service.reverser .tokenReuse).registry.setLive (.transport sharedTag) pair 0).2 } := by
  have started : Reachable .standard (.peerNamed .tokenReuse) none List.reverse
      ⟨⟨.reverser .tokenReuse, []⟩, []⟩ := .start (Service.new_peerNamed rfl)
  obtain ⟨request, pair, out, v, received, settled⟩ := settle_receive_shared
    (w := ⟨⟨.reverser .tokenReuse, []⟩, []⟩) rfl rfl rfl transportTag_shared.1 fun _ => by decide
  have run := (started.step (.datagram 0 longer
    (Frame.handshake (some digits) request).encode (fun _ => 0) (.ofNatLE 9))).step
      (.settle 0 0 .delivered)
  simp only [step, received, settled] at run
  exact ⟨_, pair, run, rfl, rfl, rfl⟩

/-- Under tokens of one length, the peer with the shorter port leaves the other one's channel
alone. -/
theorem isolated_equalTokens : ∃ w octets,
    Reachable .standard (.peerNamed .tokenReuse) none List.reverse w ∧
    (⟨⟨longer, some digits⟩, ⟨0⟩⟩ : Origin) ∈ w.origins ∧
    Frame.decode octets = .ok (.message (some digits) none []) ∧
    Untouched w.service.registry (DatagramServer.handleDatagram .standard w.service 0 shorter
      (Frame.delivery shorter) octets (fun _ => 0) (.ofNatLE 9)).2.registry ⟨0⟩ := by
  obtain ⟨w, pair, reached, -, origins, -⟩ := reachable_longer
  have mem : (⟨⟨longer, some digits⟩, ⟨0⟩⟩ : Origin) ∈ w.origins := by simp [origins]
  have differ : shorter ≠ longer := by decide
  obtain ⟨octets, decoded⟩ : ∃ octets, Frame.decode octets = .ok (.message (some digits) none []) :=
    ⟨_, Frame.decode_encode _⟩
  have apart := (((isolated reached rfl differ).2 _ mem rfl).1 octets ?_).1 0
    (Frame.delivery shorter) (fun _ => 0) (.ofNatLE 9)
  · exact ⟨_, octets, reached, mem, decoded, apart⟩
  · intro frame s t read mine theirs
    rw [decoded] at read
    obtain rfl := Except.ok.inj read
    obtain rfl : digits = s := Option.some.inj mine
    obtain rfl : digits = t := Option.some.inj theirs
    exact not_glued_of_length_eq differ rfl

/-- With a token that starts with the missing digit, the peer with the shorter port takes the name
of the other one's channel for a channel of its own. -/
theorem taken_by_other_peer : ∃ w request,
    Reachable .standard (.peerNamed .tokenReuse) none List.reverse w ∧
    (⟨⟨longer, some digits⟩, ⟨0⟩⟩ : Origin) ∈ w.origins ∧ shorter ≠ longer ∧
    w.service.registry.live? (.transport sharedTag) = some ⟨0⟩ ∧
    (DatagramServer.handleDatagram .standard w.service 0 shorter (fun _ => .delivered)
      (Frame.handshake (some (51 :: digits)) request).encode (fun _ => 0)
        (.ofNatLE 9)).2.registry.live? (.transport sharedTag) = some ⟨1⟩ := by
  obtain ⟨w, pair, reached, pending, origins, service⟩ := reachable_longer
  have live : w.service.registry.live? (.transport sharedTag) = some ⟨0⟩ := by
    rw [service]
    exact live?_setLive ..
  obtain ⟨request, other, out, v, received, settled⟩ := settle_receive_shared (w := w)
    (by rw [service]; rfl) (by rw [service]; rfl) pending transportTag_shared.2
    fun free => by
      rw [live?_eq_none_of_free free] at live
      cases live
  refine ⟨w, request, reached, by simp [origins], by decide, live, ?_⟩
  simp only [handleDatagram_eq, received, pending, List.length_nil, Option.elim_some, settled,
    live?_setLive]
  rw [service]
  rfl

end Hosting

end SecureChannel
