import SecureChannel.Proofs.Datagram.Conversation
import SecureChannel.Proofs.Datagram.Settling

/-!
# One name at both ends

Client and server find the name of a channel each on its own. The client takes it from its own
address and from the token of the handshake, the server from the address that a datagram came from
and from the token of the frame. In every run both have the same names: where the address is part of
the name, the server has to see the client at the address that the client has, and no more is
needed.

What a channel is good for is another matter. `Sure` says that its handshake is settled, that no
other handshake waits for its name, and that both ends are in step. `Agrees` says how a channel
comes to be like this, how it stays so, and what its messages are answered with.
-/

namespace SecureChannel.Session

open Registry DatagramServer

variable {p : Primitives} {w : Session} {m : Moment} {config : Config} {key : Option Bytes32}
variable {handler : Bytes → Bytes}

/-- A call of the client, or the server settles a handshake whose response has left. -/
inductive Event
  | call (m : Moment) (wish : Wish)
  | settle (now index : Nat)

def step (p : Primitives) (w : Session) : Event → Session
  | .call m wish => (w.call p m wish).2
  | .settle now index => w.settle now index

/-- Handshakes are fair, and there is room to settle them. Messages may get lost. -/
def Honest (p : Primitives) (w : Session) : Event → Prop
  | .call m (.connect hello) => w.Fair p m hello
  | .call _ _ => True
  | .settle _ index => w.Roomy index

/-- What events lead to, one after the other. The client is a new one, and the server may have been
called with anything before. Where the address is part of a name, both ends know the client by the
same address. -/
inductive Reachable (p : Primitives) (config : Config) (key : Option Bytes32)
    (handler : Bytes → Bytes) : Session → Prop
  | start {hosting : Hosting} {endpoint peer : Endpoint}
      (served : Hosting.Reachable p config (key.map (StaticKey.ofPrivate p)) handler hosting)
      (seen : config.codec.requiresTransportId = true → peer = endpoint) :
      Reachable p config key handler ⟨⟨.new endpoint config, [], []⟩, hosting, peer, [], []⟩
  | step {w : Session} (reached : Reachable p config key handler w) (event : Event)
      (honest : w.Honest p event) : Reachable p config key handler (w.step p event)

theorem Reachable.sound (sealing : p.Sealing) (reached : Reachable p config key handler w) :
    Sound p config key handler w := by
  induction reached with
  | start served seen =>
    exact ⟨served, rfl, seen, rfl, by simp [Caller.InMode], by simp, .nil, by simp⟩
  | step _ event honest ih =>
    cases event with
    | call m wish =>
      cases wish with
      | fetchKey =>
        rw [Session.step, ih.fetch]
        exact ih
      | connect hello => exact ih.connect sealing honest
      | send index plaintext => exact ih.send sealing m index plaintext
      | close index => exact ih.close sealing m index
    | settle now index => exact ih.settle honest

/-! ### What events do -/

/-- A client that gets a channel has the name under which the server will register it, and that is
none of those that can be used. -/
structure Joined (w : Session) (channel : ClientChannel) (after : Session) : Prop where
  channels : after.channels = w.kept ++ [channel]
  promised : ∃ one, after.unsettled = w.unsettled ++ [one] ∧ one.response.naming.id = channel.id
  distinct : ∀ other ∈ w.kept, other.id ∉ w.doubtful → other.id ≠ channel.id
  certain : channel.id ∈ after.doubtful →
    w.pending channel.id ≠ [] ∨ ∃ other ∈ w.kept, other.id = channel.id
  sure : ∀ id, id ≠ channel.id → w.Sure id → after.Sure id

/-- A client that gets no channel has those that it had, and all names stand for what they did. A
channel stays good for use unless a handshake that the client has given up has its name. -/
structure Refused (w : Session) (after : Session) : Prop where
  channels : after.channels = w.channels
  live : ∀ id, after.service.registry.live? id = w.service.registry.live? id
  sure : ∀ id, after.pending id = [] → w.Sure id → after.Sure id

/-- A message on a channel that can be used is answered with what the application says, exactly if
both frames get through and the answer can be sealed. Under explicit nonces the channel can be used
again in any case, and under implicit ones if both frames got through. -/
structure Conveyed (p : Primitives) (config : Config) (handler : Bytes → Bytes) (w : Session)
    (m : Moment) (id : ChannelId) (plaintext ciphertext : Bytes)
    (answer : Except ChannelError Returned) (after : Session) : Prop where
  answered : answer = .ok (.answer (handler plaintext)) ↔
    w.Delivered p m id ciphertext ∧ ¬ CipherState.tooLong (handler plaintext)
  short : m.Delivers →
    plaintext.length + CipherState.nonceLength + CipherState.tagLength ≤ maxCarried →
    (handler plaintext).length + CipherState.nonceLength + CipherState.tagLength ≤ maxCarried →
      answer = .ok (.answer (handler plaintext))
  live : ∀ id, after.service.registry.live? id = w.service.registry.live? id
  sure : config.nonceMode.isExplicit = true ∨ w.Delivered p m id ciphertext → after.Sure id
  others : ∀ other, other ≠ id → w.Sure other → after.Sure other

/-- A request to close a channel that can be used frees its name if it gets through, and no other
name. -/
structure Closed (w : Session) (m : Moment) (index : Nat) (id : ChannelId) (ciphertext : Bytes)
    (answer : Except ChannelError Returned) (after : Session) : Prop where
  answered : answer = .ok .closed ↔ m.Reaches (w.farewell m id ciphertext).frame ∧
    m.Returns (replyTo (w.farewell m id ciphertext).token (.ok []))
  delivered : m.Delivers → answer = .ok .closed
  channels : after.channels = w.channels.eraseIdx index
  freed : m.Reaches (w.farewell m id ciphertext).frame → after.service.registry.slots[id]? = none
  others : ∀ other, other ≠ id →
    after.service.registry.slots[other]? = w.service.registry.slots[other]?
  sure : ∀ other, w.Sure other → after.Sure other

variable {hello : Hello} {channel channel' : ClientChannel} {after : Session} {index : Nat}
variable {plaintext ciphertext : Bytes} {e : ChannelError} {one : Unsettled Asker}

theorem Sound.joined (sealing : p.Sealing) (sound : Sound p config key handler w)
    (fair : w.Fair p m hello)
    (called : w.call p m (.connect hello) = (.ok (.channel channel), after)) :
    w.Joined channel after := by
  rcases sound.connect_cases sealing fair with
    ⟨_, _, r, connected, -⟩ | ⟨_, one, r, connected, -⟩ | ⟨channel', one, r, connected, promises⟩
  · rw [connected] at called
    cases called
  · rw [connected] at called
    cases called
  · rw [connected] at called
    cases called
    refine ⟨rfl, ⟨one, rfl, promises.name⟩, fun other => promises.ne_of_kept sound fair, ?_, ?_⟩
    · intro doubt
      simpa only [mem_doubtsOnJoin, if_true] using doubt
    · intro id ne sure
      refine ⟨?_, ?_⟩
      · change (w.promising r one).pending id = []
        rw [pending_promising, sure.settled, promises.name, if_neg (Ne.symm ne), List.nil_append]
      · rw [mem_doubtsOnJoin, if_neg ne]
        exact sure.certain

theorem Sound.refused (sealing : p.Sealing) (sound : Sound p config key handler w)
    (fair : w.Fair p m hello) (called : w.call p m (.connect hello) = (.error e, after)) :
    w.Refused after := by
  rcases sound.connect_cases sealing fair with
    ⟨_, caller, r, connected, said, same⟩ | ⟨_, one, r, connected, prepares⟩ |
    ⟨channel', one, r, connected, -⟩
  · rw [connected] at called
    cases called
    have channels : caller.channels = w.channels := by
      rcases said with rfl | rfl <;> rfl
    exact ⟨channels, fun id => by simp only [serving, Registry.live?, same.slots],
      fun id settled sure => ⟨settled, sure.certain⟩⟩
  · rw [connected] at called
    cases called
    refine ⟨rfl, prepares.live?, fun id settled sure => ⟨settled, ?_⟩⟩
    change (w.promising r one).pending id = [] at settled
    rw [pending_promising, sure.settled, List.nil_append] at settled
    intro doubt
    rcases List.mem_append.mp doubt with old | new
    · exact sure.certain old
    · rw [List.mem_singleton.mp new, if_pos rfl] at settled
      cases settled
  · rw [connected] at called
    cases called

/-- Settling a handshake registers the name that the client knows. -/
theorem Sound.settles (sound : Sound p config key handler w)
    (inside : w.unsettled[index]? = some one) (room : w.Roomy index) (now : Nat) :
    w.service.registry.Opens one.response.naming.id one.response.pair now
      (w.settle now index).service.registry ∧
    ∀ channel ∈ w.channels, channel.id = one.response.naming.id → channel.id ∉ w.doubtful →
      (w.settle now index).Sure channel.id := by
  obtain ⟨r, settled, opens⟩ := settle_opens inside room now
  rw [settled]
  refine ⟨opens, fun channel mem same certain => ⟨?_, certain⟩⟩
  have waits := Hosting.mem_pending (List.mem_of_getElem? inside)
  rw [← same] at waits
  cases sound.keeps channel mem certain with
  | linked settled =>
    rw [settled] at waits
    cases waits
  | promised alone =>
    rw [same, Hosting.pending] at alone
    rw [same]
    exact (Hosting.filter_eraseIdx_of_eq inside alone).2

theorem Sound.conveyed (sealing : p.Sealing) (sound : Sound p config key handler w)
    (inside : w.channels[index]? = some channel)
    (seals : channel.encrypt p [] plaintext = .ok (ciphertext, channel'))
    (sure : w.Sure channel.id) (m : Moment) :
    w.Conveyed p config handler m channel.id plaintext ciphertext
      (w.call p m (.send index plaintext)).1 (w.call p m (.send index plaintext)).2 := by
  obtain ⟨answer, last, r, arrival, sends⟩ := sound.sends sealing inside seals m
  rw [sends.called]
  have doubtful : ∀ id, id ∈ (w.sent m index last r arrival).doubtful ↔ id ∈ w.doubtful ∨
      id = channel.id ∧ ¬ (w.pending channel.id = [] ∧
        (arrival.isFrame = true ∨ w.service.config.nonceMode.isExplicit = true)) := by
    intro id
    rw [sent, sends.name]
    exact mem_doubtsOnSend ..
  refine ⟨sends.answered sure, ?_, sends.live sure, ?_, ?_⟩
  · intro delivers message reply
    refine (sends.answered sure).mpr ⟨sound.delivered_of_short sealing
      (List.mem_of_getElem? inside) sure seals delivers message reply, ?_⟩
    rw [CipherState.tooLong, CipherState.maxBlocks, UInt32.size]
    rw [maxCarried] at reply
    omega
  · intro kept
    refine ⟨sure.settled, ?_⟩
    rw [doubtful, sends.arrived, sound.steady.configured]
    simp [sure.certain, sure.settled, kept.symm]
  · intro other ne certain
    refine ⟨certain.settled, ?_⟩
    rw [doubtful]
    simp [certain.certain, ne]

theorem Sound.closed (sealing : p.Sealing) (sound : Sound p config key handler w)
    (inside : w.channels[index]? = some channel)
    (seals : channel.encryptClose p = .ok (ciphertext, channel')) (sure : w.Sure channel.id)
    (m : Moment) :
    w.Closed m index channel.id ciphertext (w.call p m (.close index)).1
      (w.call p m (.close index)).2 := by
  obtain ⟨answer, r, closes⟩ := sound.closes sealing inside seals m
  rw [closes.called]
  refine ⟨closes.answered sure, ?_, rfl, closes.freed sure, fun other ne => closes.confined.slots
    other (Ne.symm ne), fun other certain => ⟨certain.settled, certain.certain⟩⟩
  intro delivers
  obtain ⟨encrypter, sealed, -⟩ := ClientChannel.encrypt_eq seals
  have length := CipherState.length_of_encrypt sealing sealed
  refine (closes.answered sure).mpr ⟨(delivers _ (DatagramClient.fits_request
    (sound.spelled channel (List.mem_of_getElem? inside)).admissible (.inr rfl) m.sized ?_)).1,
    (delivers _ (DatagramClient.fits_replyTo_request w.client _ _ _ m.sized ?_)).2⟩
  · simp only [List.length_nil, CipherState.nonceLength, CipherState.tagLength, maxCarried]
      at length ⊢
    omega
  · rintro body ⟨⟩
    exact Nat.zero_le _

/-! ### Every run -/

/-- What is so at every moment, and what the next event does. -/
structure Agrees (p : Primitives) (config : Config) (handler : Bytes → Bytes) (w : Session) :
    Prop where
  /-- At the server every frame for a channel is for the name that the client has. -/
  names : ∀ channel ∈ w.channels, w.Names channel.id
  /-- A channel that can be used is live under its name. -/
  live : ∀ channel ∈ w.channels, w.Sure channel.id →
    ∃ h, w.service.registry.live? channel.id = some h
  joins : ∀ m hello channel after, w.Fair p m hello →
    w.call p m (.connect hello) = (.ok (.channel channel), after) → w.Joined channel after
  fails : ∀ m hello e after, w.Fair p m hello →
    w.call p m (.connect hello) = (.error e, after) → w.Refused after
  /-- A client that the server can take in gets a channel. -/
  admits : ∀ m hello, w.Fair p m hello → w.Admits p m hello →
    ∃ channel, (w.call p m (.connect hello)).1 = .ok (.channel channel)
  /-- Settling a handshake registers the name that the client knows. -/
  settles : ∀ now index one, w.unsettled[index]? = some one → w.Roomy index →
    w.service.registry.Opens one.response.naming.id one.response.pair now
      (w.settle now index).service.registry ∧
    ∀ channel ∈ w.channels, channel.id = one.response.naming.id → channel.id ∉ w.doubtful →
      (w.settle now index).Sure channel.id
  sends : ∀ m index channel plaintext ciphertext channel', w.channels[index]? = some channel →
    channel.encrypt p [] plaintext = .ok (ciphertext, channel') → w.Sure channel.id →
      w.Conveyed p config handler m channel.id plaintext ciphertext
        (w.call p m (.send index plaintext)).1 (w.call p m (.send index plaintext)).2
  closes : ∀ m index channel ciphertext channel', w.channels[index]? = some channel →
    channel.encryptClose p = .ok (ciphertext, channel') → w.Sure channel.id →
      w.Closed m index channel.id ciphertext (w.call p m (.close index)).1
        (w.call p m (.close index)).2

/-- In every run both ends have the same names for the channels of the client, and what can be used
of them serves. -/
theorem names_agree (sealing : p.Sealing) (reached : Reachable p config key handler w) :
    w.Agrees p config handler := by
  have sound := reached.sound sealing
  refine ⟨fun channel mem => sound.names mem, ?_, fun m hello channel after => sound.joined sealing,
    fun m hello e after => sound.refused sealing, ?_,
    fun now index one inside room => sound.settles inside room now, ?_, ?_⟩
  · intro channel mem sure
    obtain ⟨h, c, live, -⟩ := sound.linked mem sure
    exact ⟨h, live⟩
  · intro m hello fair admits
    obtain ⟨_, channel, _, _, -, -, called, -⟩ := sound.welcomed sealing fair admits
    exact ⟨channel, by rw [called]⟩
  · intro m index channel plaintext ciphertext channel' inside seals sure
    exact sound.conveyed sealing inside seals sure m
  · intro m index channel ciphertext channel' inside seals sure
    exact sound.closed sealing inside seals sure m

/-! ### A client under token reuse -/

/-- A client that was not called yet, and a server that reverses what it is sent. -/
def idle : Session :=
  ⟨⟨.new (.v4 .loopback 5683) (.peerNamed .tokenReuse), [], []⟩, ⟨⟨.reverser .tokenReuse, []⟩, []⟩,
    .v4 .loopback 5683, [], []⟩

/-- A moment with a token of equal octets. The sockets refuse only what is too long. -/
def moment (octet : UInt8) : Moment where
  token := List.replicate tokenLength octet
  sized := List.length_replicate
  now := 0
  draws := fun _ => 0
  fresh := .ofNatLE 9
  up := fun frame => if frame.fits then none else some .messageTooLong
  down := Frame.delivery (.v4 .loopback 5683)

/-- The session after a handshake that is settled as soon as the client has its channel. -/
def joined (w : Session) (octet : UInt8) : Session :=
  (w.call .standard (moment octet) (.connect .plain)).2.settle 0 w.unsettled.length

theorem delivers_moment (octet : UInt8) : (moment octet).Delivers :=
  fun frame fits => ⟨⟨by simp [moment, fits], fits⟩, delivery_of_fits _ fits, fits⟩

/-- The session has one more channel, which can be used. -/
structure Joins (w : Session) (octet : UInt8) (channel : ClientChannel)
    (response : PreparedResponse) : Prop where
  reached : Reachable .standard (.peerNamed .tokenReuse) none List.reverse (w.joined octet)
  made : ∃ handshake, Hello.plain.start .standard (.peerNamed .tokenReuse) = .ok handshake ∧
    (w.service.prepareHandshake .standard (w.tag (moment octet)) handshake.request
      (moment octet).draws (moment octet).fresh).1 = .ok response
  crossed : ∃ up down, channel.pair = .new up down .implicit ∧
    response.pair = .new down up .implicit
  channels : (w.joined octet).channels = w.channels ++ [channel]
  drawn : (w.joined octet).drawn = w.drawn ++ [(moment octet).token]
  settled : (w.joined octet).unsettled = []
  certain : (w.joined octet).doubtful = []
  opens : w.service.registry.Opens channel.id response.pair 0 (w.joined octet).service.registry

/-- Any client can shake hands with such a server, if its token is a new one. -/
theorem Reachable.fair_plain
    (reached : Reachable .standard (.peerNamed .tokenReuse) none List.reverse w) {octet : UInt8}
    (token : (moment octet).token ∉ w.drawn) : w.Fair .standard (moment octet) .plain := by
  have sound := reached.sound Primitives.standard_sealing
  have key : w.service.key = none := sound.started.key
  refine ⟨token, Primitives.agree_standard.1, ?_, ?_⟩
  · intro k known
    rw [key] at known
    cases known
  · intro pattern
    rw [sound.steady.configured] at pattern
    cases pattern

theorem Reachable.admits_plain
    (reached : Reachable .standard (.peerNamed .tokenReuse) none List.reverse w)
    (room : w.service.registry.isFull = false) (octet : UInt8) :
    w.Admits .standard (moment octet) .plain := by
  have configured := (reached.sound Primitives.standard_sealing).steady.configured
  refine ⟨?_, delivers_moment octet, room, Nat.zero_le _, Nat.zero_le _, ?_⟩
  · intro uses
    rw [configured] at uses
    cases uses
  · intro other
    rw [configured] at other
    exact absurd rfl other

/-- A handshake under a new token makes a further channel. -/
theorem Reachable.joins
    (reached : Reachable .standard (.peerNamed .tokenReuse) none List.reverse w) {octet : UInt8}
    (token : (moment octet).token ∉ w.drawn) (room : w.service.registry.isFull = false)
    (settled : w.unsettled = []) (certain : w.doubtful = []) :
    ∃ channel response, w.Joins octet channel response := by
  have sealing := Primitives.standard_sealing
  have sound := reached.sound sealing
  have configured := sound.steady.configured
  have fair := reached.fair_plain token
  obtain ⟨handshake, channel, one, r, started, handled, called, promises⟩ :=
    sound.welcomed sealing fair (reached.admits_plain room octet)
  obtain rfl : r = w.service.registry := by
    rcases promises.prepares.naming with ⟨other, -⟩ | ⟨-, -, -, -, same⟩
    · rw [configured] at other
      exact absurd rfl other
    · exact same
  generalize after : (w.call .standard (moment octet) (.connect .plain)).2 = v
  have next := reached.step (.call (moment octet) (.connect .plain)) fair
  rw [Session.step, after] at next
  rw [called] at after
  have inside : v.unsettled[w.unsettled.length]? = some one := by
    rw [← after]
    exact List.getElem?_concat_length
  have roomy : v.Roomy w.unsettled.length := by
    rw [← after]
    exact fun _ _ _ => room
  obtain ⟨s, joined, opens⟩ := settle_opens inside roomy 0
  have last := next.step (.settle 0 w.unsettled.length) roomy
  obtain ⟨up, down, mine, theirs⟩ := promises.crossed
  have same : w.joined octet = v.settle 0 w.unsettled.length := by
    rw [Session.joined, called, after]
  rw [configured] at started mine theirs
  have kept : w.kept = w.channels := by
    rw [Session.kept, sound.codec]
    rfl
  subst after
  refine ⟨channel, one.response, same ▸ last, ⟨handshake, started, by rw [handled]⟩,
    ⟨up, down, mine, theirs⟩, ?_, ?_, ?_, ?_, ?_⟩
  · rw [same, joined, kept]
  · rw [same, joined]
    rfl
  · rw [same, joined]
    simp [promising, settled]
  · rw [same, joined]
    refine List.eq_nil_iff_forall_not_mem.mpr fun id doubt => ?_
    rw [mem_doubtsOnJoin] at doubt
    split at doubt
    · rcases doubt with waits | ⟨other, mem, equal⟩
      · exact waits (by rw [Hosting.pending, settled]; rfl)
      · exact promises.ne_of_kept sound fair mem (by simp [certain]) equal
    · simp [certain] at doubt
  · rw [same, joined, ← promises.name]
    exact opens

theorem reachable_idle : Reachable .standard (.peerNamed .tokenReuse) none List.reverse idle :=
  .start (.start (Service.new_peerNamed rfl)) fun _ => rfl

theorem isFull_idle : idle.service.registry.isFull = false := by
  simp [idle, Service.reverser, Registry.new, isFull, Config.peerNamed, Config.limits,
    Config.default]

theorem idle_joins : ∃ channel response, idle.Joins 1 channel response :=
  reachable_idle.joins List.not_mem_nil isFull_idle rfl rfl

/-- After two handshakes the client still sends on its first channel, and closes that one alone. -/
theorem names_agree_twice : ∃ first second,
    ((idle.joined 1).joined 2).channels = [first, second] ∧ first.id ≠ second.id ∧
      (((idle.joined 1).joined 2).call .standard (moment 3) (.send 0 [1, 2])).1 =
        .ok (.answer [2, 1]) ∧
      (((idle.joined 1).joined 2).call .standard (moment 3) (.close 0)).1 = .ok .closed ∧
      (((idle.joined 1).joined 2).call .standard (moment 3)
        (.close 0)).2.service.registry.slots[first.id]? = none ∧
      (((idle.joined 1).joined 2).call .standard (moment 3)
        (.close 0)).2.service.registry.live? second.id ≠ none := by
  obtain ⟨first, answer, once⟩ := idle_joins
  have room : (idle.joined 1).service.registry.isFull = false := by
    have size := once.opens.size_le
    have empty : idle.service.registry.slots.size = 0 := by
      simp [idle, Service.reverser, Registry.new]
    have limit : (idle.joined 1).service.registry.limits.maxSessions = 4096 :=
      congrArg Limits.maxSessions once.opens.limits
    rw [isFull, limit, decide_eq_false_iff_not]
    omega
  have drawn : (moment 2).token ∉ (idle.joined 1).drawn := by
    rw [once.drawn]
    decide
  obtain ⟨second, answer', twice⟩ := once.reached.joins drawn room once.settled once.certain
  have sealing := Primitives.standard_sealing
  obtain ⟨-, live, -, -, -, -, sends, closes⟩ := names_agree sealing twice.reached
  have channels : ((idle.joined 1).joined 2).channels = [first, second] := by
    rw [twice.channels, once.channels]
    rfl
  have sure : ∀ id, ((idle.joined 1).joined 2).Sure id := fun id =>
    ⟨by rw [Hosting.pending, twice.settled]; rfl, by simp [twice.certain]⟩
  have distinct : first.id ≠ second.id := by
    have unique := (twice.reached.sound sealing).unique
    rw [channels, List.pairwise_pair, twice.certain] at unique
    exact fun same => absurd (unique same) List.not_mem_nil
  obtain ⟨up, down, pair, -⟩ := once.crossed
  have unused : first.pair.encrypter.nonce ≠ CipherState.lastNonce := by
    rw [pair]
    exact CipherState.nonce_new_ne_lastNonce up _
  obtain ⟨message, _, sent⟩ := ClientChannel.encrypt_isOk .standard [] unused
    (by decide : ¬ CipherState.tooLong [1, 2])
  obtain ⟨request, _, sealed⟩ := ClientChannel.encrypt_isOk .standard closeMarker unused
    (by decide : ¬ CipherState.tooLong [])
  have inside : ((idle.joined 1).joined 2).channels[0]? = some first := by rw [channels]; rfl
  have conveyed := sends (moment 3) 0 first [1, 2] message _ inside sent (sure _)
  have closed := closes (moment 3) 0 first request _ inside sealed (sure _)
  obtain ⟨h, there⟩ := live second (by rw [channels]; simp) (sure _)
  refine ⟨first, second, channels, distinct,
    conveyed.short (delivers_moment 3) (by decide) (by decide),
    closed.delivered (delivers_moment 3),
    closed.freed ?_, ?_⟩
  · exact (closed.answered.mp (closed.delivered (delivers_moment 3))).1
  · rw [Registry.live?, closed.others second.id distinct.symm]
    rw [Registry.live?] at there
    rw [there]
    exact Option.some_ne_none h

set_option maxRecDepth 100000 in
/-- What the client seals second, the server's end does not open first. -/
theorem not_opened_out_of_turn {handshake : ClientHandshake} {response : PreparedResponse}
    (started : Hello.plain.start .standard (.peerNamed .tokenReuse) = .ok handshake)
    (made : (idle.service.prepareHandshake .standard (idle.tag (moment 1)) handshake.request
      (moment 1).draws (moment 1).fresh).1 = .ok response) :
    Primitives.standard.decrypt response.pair.decrypter.key 0 [] (Primitives.standard.encrypt
        response.pair.decrypter.key 1 [] [1, 2]) = none ∧
      Primitives.standard.decrypt response.pair.decrypter.key 0 closeMarker
        (Primitives.standard.encrypt response.pair.decrypter.key 1 closeMarker []) = none := by
  have checked : ((Hello.plain.start .standard (.peerNamed .tokenReuse)).bind fun handshake =>
      (idle.service.prepareHandshake .standard (idle.tag (moment 1)) handshake.request
        (moment 1).draws (moment 1).fresh).1.map fun response =>
          (Primitives.standard.decrypt response.pair.decrypter.key 0 [] (Primitives.standard.encrypt
            response.pair.decrypter.key 1 [] [1, 2]),
          Primitives.standard.decrypt response.pair.decrypter.key 0 closeMarker
            (Primitives.standard.encrypt response.pair.decrypter.key 1 closeMarker []))).toOption =
      some (none, none) := by
    decide +kernel
  simpa [started, Except.bind, made, Except.map, Except.toOption] using checked

/-- The client is one message ahead of the server on its only channel. -/
structure Ahead (w : Session) (channel : ClientChannel) (h : Handle) (up down : Bytes32) :
    Prop where
  reached : Reachable .standard (.peerNamed .tokenReuse) none List.reverse w
  channels : w.channels = [channel]
  moved : channel.pair.encrypter = { CipherState.new up .implicit with nonce := 0 + 1 }
  live : w.service.registry.live? channel.id = some h
  found : w.service.registry.channel? h = some (.new channel.id (.new down up .implicit) 0)

section Ahead

variable {h : Handle} {up down : Bytes32}

theorem Ahead.inside (ahead : w.Ahead channel h up down) : w.channels[0]? = some channel := by
  rw [ahead.channels]
  rfl

theorem Ahead.nonce_ne (ahead : w.Ahead channel h up down) :
    channel.pair.encrypter.nonce ≠ CipherState.lastNonce := by
  rw [ahead.moved]
  exact (by decide : (0 + 1 : UInt64) ≠ CipherState.lastNonce)

/-- The server refuses the next message, if the cipher tells its number from the one before. -/
theorem Ahead.send_refused (ahead : w.Ahead channel h up down)
    (short : ¬ CipherState.tooLong plaintext)
    (apart : Primitives.standard.decrypt up 0 []
      (Primitives.standard.encrypt up 1 [] plaintext) = none) (m : Moment) :
    ∃ e, (w.call .standard m (.send 0 plaintext)).1 = .error e := by
  obtain ⟨octets, next, seals⟩ := ClientChannel.encrypt_isOk .standard [] ahead.nonce_ne short
  have sealed := (ClientChannel.encrypt_ok seals).1
  rw [ahead.moved] at sealed
  obtain ⟨e, refused⟩ := CipherState.refuses_second apart sealed
  exact (ahead.reached.sound Primitives.standard_sealing).send_unopened ahead.inside seals rfl
    ahead.live ahead.found refused m

/-- So it does with the request to close. -/
theorem Ahead.close_refused (ahead : w.Ahead channel h up down)
    (apart : Primitives.standard.decrypt up 0 closeMarker
      (Primitives.standard.encrypt up 1 closeMarker []) = none) (m : Moment) :
    ∃ e, (w.call .standard m (.close 0)).1 = .error e := by
  obtain ⟨octets, next, seals⟩ := ClientChannel.encrypt_isOk .standard closeMarker ahead.nonce_ne
    (by decide : ¬ CipherState.tooLong [])
  have sealed := (ClientChannel.encrypt_ok seals).1
  rw [ahead.moved] at sealed
  obtain ⟨e, refused⟩ := CipherState.refuses_second apart sealed
  exact (ahead.reached.sound Primitives.standard_sealing).close_unopened ahead.inside seals rfl
    ahead.live ahead.found refused m

end Ahead

/-- A message that fits no datagram. -/
def overlongText : Bytes := List.replicate 50000 0

/-- A fresh channel seals the message, and has used up its first number then. -/
theorem encrypt_overlongText {up down : Bytes32} (fresh : channel.pair = .new up down .implicit) :
    ∃ octets channel', channel.encrypt .standard [] overlongText = .ok (octets, channel') ∧
      channel'.pair.encrypter = { CipherState.new up .implicit with nonce := 0 + 1 } := by
  have unused : channel.pair.encrypter.nonce ≠ CipherState.lastNonce := by
    rw [fresh]
    exact CipherState.nonce_new_ne_lastNonce up _
  have short : ¬ CipherState.tooLong overlongText := by
    rw [CipherState.tooLong, overlongText, List.length_replicate]
    decide
  obtain ⟨octets, next, sent⟩ := ClientChannel.encrypt_isOk .standard [] unused short
  obtain ⟨sealed, -⟩ := ClientChannel.encrypt_ok sent
  obtain ⟨-, -, -, moved⟩ := CipherState.encrypt_ok_iff.mp sealed
  exact ⟨octets, _, sent, by rw [← moved, fresh]; rfl⟩

/-- No socket takes the message. -/
theorem not_reaches_overlongText (codec : w.client.codec = .tokenReuse)
    (sent : channel.encrypt .standard [] overlongText = .ok (ciphertext, channel'))
    (m : Moment) (id : ChannelId) : ¬ m.Reaches (w.message m id ciphertext).frame := by
  have long := CipherState.le_length_of_encrypt Primitives.standard_sealing
    (ClientChannel.encrypt_ok sent).1
  rw [overlongText, List.length_replicate] at long
  have unfit : (w.message m id ciphertext).frame.fits = false := by
    simp only [Session.message, DatagramClient.request, codec, Codec.encode]
    refine Frame.not_fits_message ?_
    rw [maxDatagram]
    omega
  rintro ⟨-, fits⟩
  rw [unfit] at fits
  cases fits

/-- A call with the message, on the channel of a client that has just one. -/
def overlong : Except ChannelError Returned × Session :=
  (idle.joined 1).call .standard (moment 2) (.send 0 overlongText)

/-- The call fails, but it has moved the client's end of the channel. -/
theorem overlong_ahead {response : PreparedResponse} (joins : idle.Joins 1 channel response)
    {up down : Bytes32} (mine : channel.pair = .new up down .implicit)
    (theirs : response.pair = .new down up .implicit) :
    (∃ e, overlong.1 = .error e) ∧ ∃ channel' h, overlong.2.Ahead channel' h up down := by
  have sound := joins.reached.sound Primitives.standard_sealing
  have inside : (idle.joined 1).channels[0]? = some channel := by
    rw [joins.channels]
    rfl
  obtain ⟨octets, channel', sent, moved⟩ := encrypt_overlongText mine
  have same := ClientChannel.id_of_encrypt sent
  obtain ⟨e, arrival, called, -⟩ :=
    send_lost inside sent (not_reaches_overlongText sound.codec sent (moment 2) channel.id)
  have reached := joins.reached.step (.call (moment 2) (.send 0 overlongText)) trivial
  rw [Session.step, called] at reached
  rw [overlong, called]
  refine ⟨⟨e, rfl⟩, channel', ⟨idle.service.registry.channels.size⟩, reached, ?_, moved, ?_, ?_⟩
  · simp only [Session.sent, waiting, joins.channels]
    rfl
  · rw [registry_sent, same]
    exact joins.opens.live?
  · rw [registry_sent, same, ← theirs]
    exact joins.opens.channel?

/-- Under implicit nonces a message that was not sent costs the channel all later messages, and the
request to close, although those would be delivered. -/
theorem refused_after_overlong :
    Reachable .standard (.peerNamed .tokenReuse) none List.reverse overlong.2 ∧
      overlong.2.channels.length = 1 ∧ (moment 3).Delivers ∧ (∃ e, overlong.1 = .error e) ∧
      (∃ e, (overlong.2.call .standard (moment 3) (.send 0 [1, 2])).1 = .error e) ∧
      ∃ e, (overlong.2.call .standard (moment 3) (.close 0)).1 = .error e := by
  obtain ⟨channel, response, joins⟩ := idle_joins
  obtain ⟨handshake, started, made⟩ := joins.made
  obtain ⟨up, down, mine, theirs⟩ := joins.crossed
  obtain ⟨message, close⟩ := not_opened_out_of_turn started made
  rw [theirs] at message close
  obtain ⟨failed, channel', h, ahead⟩ := overlong_ahead joins mine theirs
  refine ⟨ahead.reached, by rw [ahead.channels]; rfl, delivers_moment 3, failed, ?_, ?_⟩
  · exact ahead.send_refused (by decide) message (moment 3)
  · exact ahead.close_refused close (moment 3)

end SecureChannel.Session
