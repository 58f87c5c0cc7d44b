import SecureChannel.Proofs.Datagram.Session
import SecureChannel.Proofs.Service.Serving

/-!
# Requests on a channel

Most requests carry no name, but a token that is cut back out of the name of their channel, and the
server puts the name together again. So where the address is part of the name, the server has to see
the client at the address that the client has. Then every message and every request to close comes
to the channel that the client has meant, and what it does is about that channel alone.

A message that is answered leaves both ends in step. One that is lost, on either way, leaves them
out of step under implicit nonces.
-/

namespace SecureChannel

open Registry DatagramServer

namespace Session

variable {p : Primitives} {w : Session} {m : Moment} {r s : Registry}
variable {config : Config} {key : Option Bytes32} {handler : Bytes → Bytes}
variable {arrival : Arrival} {after : Session} {channel channel' : ClientChannel} {index : Nat}
variable {plaintext ciphertext : Bytes} {id : ChannelId}

/-! ### Frames are for their channel -/

/-- At the server every frame of the client for a channel is for the name of that channel, and has
what was sealed. -/
def Names (w : Session) (id : ChannelId) : Prop :=
  ∀ (fresh ciphertext : Bytes) (kind : Option Bytes → Option String → Bytes → Frame),
    ∃ query body,
      Frame.decode (w.client.request id ciphertext fresh kind).frame.encode =
        .ok (kind (w.client.request id ciphertext fresh kind).token query body) ∧
      w.service.config.codec.decode w.service.config.idScheme (inbound w.service.config.codec w.peer
        (w.client.request id ciphertext fresh kind).token query body) = .ok (id, ciphertext)

/-- A request comes in as the client has made it. -/
theorem Sound.inbound (sound : Sound p config key handler w) (mem : channel ∈ w.channels)
    (ciphertext fresh : Bytes) (kind : Option Bytes → Option String → Bytes → Frame) :
    DatagramServer.inbound w.service.config.codec w.peer
      (w.client.request channel.id ciphertext fresh kind).token
      (w.client.codec.encode channel.id ciphertext).query
      (w.client.codec.encode channel.id ciphertext).body =
        w.service.config.codec.encode channel.id ciphertext := by
  obtain ⟨token, -, spells⟩ := (sound.spelled channel mem).token
  have codec : w.service.config.codec = w.client.codec := by
    rw [sound.steady.configured, sound.codec]
  rw [codec]
  exact DatagramClient.inbound_request spells (sound.codec ▸ sound.seen) ciphertext fresh kind

theorem Sound.decode (sound : Sound p config key handler w) (mem : channel ∈ w.channels)
    (ciphertext : Bytes) :
    w.service.config.codec.decode w.service.config.idScheme
      (w.service.config.codec.encode channel.id ciphertext) = .ok (channel.id, ciphertext) := by
  have spelled := sound.spelled channel mem
  rw [sound.steady.configured, ← spelled.scheme]
  exact config.codec.decode_encode spelled.admissible ciphertext

/-- What is sealed for a channel reaches the live channel of its name. -/
theorem Sound.reaches (sound : Sound p config key handler w) (mem : channel ∈ w.channels)
    {h : Handle} {c : Channel} (name : c.id = channel.id)
    (live : w.service.registry.live? channel.id = some h)
    (found : w.service.registry.channel? h = some c) (ciphertext : Bytes) :
    w.service.Reaches (w.service.config.codec.encode channel.id ciphertext) h c ciphertext := by
  refine ⟨?_, ?_, found⟩
  · rw [name]
    exact sound.decode mem ciphertext
  · rwa [name]

theorem Sound.names (sound : Sound p config key handler w) (mem : channel ∈ w.channels) :
    w.Names channel.id := by
  intro fresh ciphertext kind
  refine ⟨_, _, Frame.decode_encode _, ?_⟩
  rw [sound.inbound mem]
  exact sound.decode mem ciphertext

/-- The other channels of the client have other names than one that is not in doubt. -/
theorem Sound.ne_of_ne (sound : Sound p config key handler w)
    (inside : w.channels[index]? = some channel) {j : Nat} {other : ClientChannel}
    (located : w.channels[j]? = some other) (ne : index ≠ j) (certain : other.id ∉ w.doubtful) :
    channel.id ≠ other.id := by
  intro same
  have unique := List.pairwise_iff_getElem.mp sound.unique
  obtain ⟨hi, rfl⟩ := List.getElem?_eq_some_iff.mp inside
  obtain ⟨hj, rfl⟩ := List.getElem?_eq_some_iff.mp located
  rcases Nat.lt_or_gt_of_ne ne with before | behind
  · exact certain (same ▸ unique index j hi hj before same)
  · exact certain (unique j index hj hi behind same.symm)

/-- A request on one of the channels keeps what is known. It was about the name of its channel, and
what it has moved is in step again, or its name is in doubt. -/
theorem Sound.moved (sound : Sound p config key handler w)
    (inside : w.channels[index]? = some channel) (same : channel'.id = channel.id)
    (inMode : channel'.pair.InMode config.nonceMode)
    (confined : Confined channel.id w.service.registry s) {drawn : List Bytes}
    (more : w.drawn ⊆ drawn) {doubtful : List ChannelId} (doubts : w.doubtful ⊆ doubtful)
    (served : Hosting.Reachable p config (key.map (StaticKey.ofPrivate p)) handler (w.serving s))
    (keeps : channel.id ∉ doubtful → Keeps config.nonceMode (w.serving s) channel') :
    Sound p config key handler { w with
      toCaller := ⟨w.client, w.channels.set index channel', drawn⟩
      toHosting := w.serving s
      doubtful := doubtful } := by
  refine ⟨served, sound.codec, sound.seen, sound.inbox,
    sound.inMode.set index inMode, ?_, ?_, ?_⟩
  · intro one mem
    rcases List.mem_or_eq_of_mem_set mem with old | rfl
    · exact (sound.spelled one old).grow rfl rfl more
    · rw [same]
      exact (sound.spelled channel (List.mem_of_getElem? inside)).grow rfl rfl more
  · have unique := sound.unique
    rw [← List.pairwise_map (f := ClientChannel.id) (R := fun a b => a = b → a ∈ w.doubtful)]
      at unique
    rw [← List.pairwise_map (f := ClientChannel.id) (R := fun a b => a = b → a ∈ doubtful),
      World.map_id_set inside same]
    exact unique.imp fun doubt equal => doubts (doubt equal)
  · intro one mem certain
    obtain ⟨j, located⟩ := List.getElem?_of_mem mem
    rw [List.getElem?_set] at located
    split at located
    · split at located
      · obtain rfl := Option.some.inj located
        exact keeps (same ▸ certain)
      · cases located
    · next ne =>
      have old : one.id ∉ w.doubtful := fun doubt => certain (doubts doubt)
      exact (sound.keeps one (List.mem_of_getElem? located) old).of_confined
        (sound.ne_of_ne inside located ne old) rfl confined

theorem Sound.dropped (sound : Sound p config key handler w)
    (inside : w.channels[index]? = some channel)
    (confined : Confined channel.id w.service.registry s) {drawn : List Bytes}
    (more : w.drawn ⊆ drawn)
    (served : Hosting.Reachable p config (key.map (StaticKey.ofPrivate p)) handler (w.serving s)) :
    Sound p config key handler { w with
      toCaller := ⟨w.client, w.channels.eraseIdx index, drawn⟩
      toHosting := w.serving s } := by
  have old : ∀ one ∈ w.channels.eraseIdx index, one ∈ w.channels :=
    fun one mem => List.mem_of_mem_eraseIdx mem
  refine ⟨served, sound.codec, sound.seen, sound.inbox,
    fun one mem => sound.inMode one (old one mem),
    fun one mem => (sound.spelled one (old one mem)).grow rfl rfl more,
    sound.unique.sublist (List.eraseIdx_sublist ..), ?_⟩
  intro one mem certain
  obtain ⟨j, ne, located⟩ := List.mem_eraseIdx_iff_getElem?.mp mem
  exact (sound.keeps one (old one mem) certain).of_confined
    (sound.ne_of_ne inside located (Ne.symm ne) certain) rfl confined

/-! ### Messages -/

def message (w : Session) (m : Moment) (id : ChannelId) (ciphertext : Bytes) : Request :=
  w.client.request id ciphertext m.token .message

/-- What the server does with the message. -/
def handled (p : Primitives) (w : Session) (m : Moment) (id : ChannelId) (ciphertext : Bytes) :
    Except ChannelError Bytes × Service :=
  w.service.handleMessage p m.now (w.service.config.codec.encode id ciphertext)

/-- What the server hands to its socket. -/
def reply (p : Primitives) (w : Session) (m : Moment) (id : ChannelId) (ciphertext : Bytes) :
    Frame :=
  replyTo (w.message m id ciphertext).token (w.handled p m id ciphertext).1

/-- The message gets to the server, and the reply gets to the client. -/
def Delivered (p : Primitives) (w : Session) (m : Moment) (id : ChannelId) (ciphertext : Bytes) :
    Prop :=
  m.Reaches (w.message m id ciphertext).frame ∧ m.Returns (w.reply p m id ciphertext)

/-- The client while it waits for an answer. -/
def waiting (w : Session) (m : Moment) (index : Nat) (channel : ClientChannel) : Session :=
  { w with toCaller := ⟨w.client, w.channels.set index channel, w.drawn ++ w.draw m.token⟩ }

/-- The session after a message, with what has become of the channel and of the registry. -/
def sent (w : Session) (m : Moment) (index : Nat) (channel : ClientChannel) (r : Registry)
    (arrival : Arrival) : Session :=
  { w.waiting m index channel with
    toHosting := w.serving r
    doubtful := w.doubtsOnSend channel.id arrival }

@[simp] theorem registry_sent (w : Session) (m : Moment) (index : Nat) (channel : ClientChannel)
    (r : Registry) (arrival : Arrival) : (w.sent m index channel r arrival).service.registry = r :=
  rfl

/-- What comes of a message that was sealed, by what has come back. -/
theorem call_send (inside : w.channels[index]? = some channel)
    (seals : channel.encrypt p [] plaintext = .ok (ciphertext, channel'))
    (exchanged : exchange p (w.waiting m index channel') m (w.message m channel.id ciphertext) =
      (arrival, { w.waiting m index channel' with toHosting := w.serving r })) :
    w.call p m (.send index plaintext) =
      match w.client.messageAnswer p channel' arrival with
      | .error e => (.error e, w.sent m index channel' r arrival)
      | .ok (text, last) => (.ok (.answer text), w.sent m index last r arrival) := by
  have same := ClientChannel.id_of_encrypt seals
  obtain ⟨less, -⟩ := List.getElem?_eq_some_iff.mp inside
  have there : (w.channels.set index channel')[index]? = some channel' := by
    rw [List.getElem?_set_self less]
  rw [message, waiting] at exchanged
  cases answer : w.client.messageAnswer p channel' arrival with
  | error e =>
    simp only [call, Caller.ask_send inside seals, exchanged, Caller.finish, there, answer,
      channelsAfter, doubts, inside, sent, waiting, same]
  | ok opened =>
    obtain ⟨text, last⟩ := opened
    have name : last.id = channel.id :=
      (DatagramClient.id_of_messageAnswer answer).trans same
    simp only [call, Caller.ask_send inside seals, exchanged, Caller.finish, there, answer,
      channelsAfter, doubts, inside, sent, waiting, name, List.set_set]

/-- Serving a message is about the name of its channel. -/
theorem Sound.confined_handled (sound : Sound p config key handler w) (mem : channel ∈ w.channels)
    (m : Moment) (ciphertext : Bytes) :
    ∃ r, (w.handled p m channel.id ciphertext).2 = { w.service with registry := r } ∧
      Confined channel.id w.service.registry r := by
  obtain ⟨r, service⟩ := Service.handleMessage_service p w.service m.now
    (w.service.config.codec.encode channel.id ciphertext)
  refine ⟨r, service, ?_⟩
  rcases Service.handleMessage_cases p sound.steady.running.named m.now
    (w.service.config.codec.encode channel.id ciphertext) with
      ⟨e, unread, -⟩ | ⟨id, octets, read, confined⟩
  · rw [sound.decode mem] at unread
    cases unread
  · rw [sound.decode mem] at read
    obtain ⟨rfl, -⟩ := Prod.mk.inj (Except.ok.inj read)
    rwa [service] at confined

theorem send_lost (inside : w.channels[index]? = some channel)
    (seals : channel.encrypt p [] plaintext = .ok (ciphertext, channel'))
    (lost : ¬ m.Reaches (w.message m channel.id ciphertext).frame) :
    ∃ e arrival, w.call p m (.send index plaintext) =
      (.error e, w.sent m index channel' w.service.registry arrival) ∧
        arrival.isFrame = false := by
  obtain ⟨arrival, exchanged, unanswered⟩ :=
    exchange_lost (p := p) (w := w.waiting m index channel') lost
  have called := call_send inside seals (r := w.service.registry) exchanged
  cases arrival with
  | frame frame => cases unanswered
  | failed e => exact ⟨_, _, called, unanswered⟩
  | none => exact ⟨_, _, called, unanswered⟩

theorem Sound.exchange_message (sound : Sound p config key handler w)
    (inside : w.channels[index]? = some channel) (channel' : ClientChannel)
    (reaches : m.Reaches (w.message m channel.id ciphertext).frame)
    (served : (w.handled p m channel.id ciphertext).2 = { w.service with registry := r }) :
    exchange p (w.waiting m index channel') m (w.message m channel.id ciphertext) =
      (if m.Returns (w.reply p m channel.id ciphertext) then
          .frame (w.reply p m channel.id ciphertext) else .none,
        { w.waiting m index channel' with toHosting := w.serving r }) := by
  have inbound := sound.inbound (List.mem_of_getElem? inside) ciphertext m.token .message
  have received : w.toHosting.receive p m.now w.peer
      (w.message m channel.id ciphertext).frame.encode m.draws m.fresh =
        (some ⟨w.peer, w.reply p m channel.id ciphertext⟩, w.serving r) := by
    rw [serving, ← served, reply, handled, ← inbound]
    exact Hosting.receive_message ..
  exact exchange_answered (w := w.waiting m index channel') sound.inbox reaches rfl received
    (.inr rfl)

/-- A channel can be used: its handshake is settled, no other waits for the name, and the name is
not in doubt. -/
structure Sure (w : Session) (id : ChannelId) : Prop where
  settled : w.pending id = []
  certain : id ∉ w.doubtful

/-- A message puts the name of its channel in doubt if that cannot be used, or if the message got
lost under implicit nonces. -/
theorem mem_doubtsOnSend (w : Session) (id name : ChannelId) (arrival : Arrival) :
    id ∈ w.doubtsOnSend name arrival ↔ id ∈ w.doubtful ∨ id = name ∧ ¬ (w.pending name = [] ∧
      (arrival.isFrame = true ∨ w.service.config.nonceMode.isExplicit = true)) := by
  rw [doubtsOnSend]
  split
  · next clean =>
    simp only [Bool.and_eq_true, List.isEmpty_iff, Bool.or_eq_true] at clean
    simp [clean]
  · next unclean =>
    simp only [Bool.and_eq_true, List.isEmpty_iff, Bool.or_eq_true] at unclean
    simp [unclean, or_comm]

/-- Both ends of a channel that can be used are linked. -/
theorem Sound.linked (sound : Sound p config key handler w) (mem : channel ∈ w.channels)
    (sure : w.Sure channel.id) :
    ∃ h c, w.service.registry.live? channel.id = some h ∧ w.service.registry.channel? h = some c ∧
      World.Linked channel c := by
  rcases sound.keeps channel mem sure.certain with ⟨-, live, found, linked⟩ | ⟨alone, -, -⟩
  · exact ⟨_, _, live, found, linked⟩
  · have none := sure.settled
    rw [alone] at none
    cases none

/-- The server opens the message of a channel that can be used, and the client opens the answer, if
it can be sealed. Both ends are linked again, under explicit nonces even if the answer is lost. -/
theorem Sound.serves (sealing : p.Sealing) (sound : Sound p config key handler w)
    (mem : channel ∈ w.channels) (sure : w.Sure channel.id)
    (seals : channel.encrypt p [] plaintext = .ok (ciphertext, channel'))
    (served : (w.handled p m channel.id ciphertext).2 = { w.service with registry := r }) :
    (∀ id, r.live? id = w.service.registry.live? id) ∧
    (w.service.config.nonceMode.isExplicit = true →
      Keeps config.nonceMode (w.serving r) channel') ∧
    ((∃ body last, (w.handled p m channel.id ciphertext).1 = .ok body ∧
        body.length ≤ (handler plaintext).length + CipherState.nonceLength +
          CipherState.tagLength ∧
        ¬ CipherState.tooLong (handler plaintext) ∧
        channel'.decrypt p [] body = .ok (handler plaintext, last) ∧
        Keeps config.nonceMode (w.serving r) last) ∨
      (∃ e, (w.handled p m channel.id ciphertext).1 = .error e ∧
        CipherState.tooLong (handler plaintext) ∧
        Keeps config.nonceMode (w.serving r) channel')) := by
  obtain ⟨encrypter, sealed, rfl⟩ := ClientChannel.encrypt_eq seals
  obtain ⟨h, c, live, found, linked⟩ := sound.linked mem sure
  obtain ⟨decrypter, opened, outbound⟩ := linked.outbound.deliver sealing sealed
  obtain ⟨d, s, updates, name, again, answered⟩ :=
    Service.handleMessage_answered m.now (sound.decode mem ciphertext) live found opened
  obtain rfl : r = s := congrArg Service.registry (served.symm.trans again)
  rw [sound.started.handler] at answered
  have keeps : ∀ last, World.Linked last d → Keeps config.nonceMode (w.serving r) last := by
    intro last linked'
    have same : last.id = channel.id := linked'.name.symm.trans (name.trans linked.name)
    refine .linked ?_ ?_ updates.changed linked'
    · rw [same]
      exact sure.settled
    · rw [same]
      exact (updates.live? _).trans live
  refine ⟨updates.live?, ?_, ?_⟩
  · intro explicit
    refine keeps _ (linked.unanswered ?_ sealed outbound name answered)
    rw [(sound.inMode channel mem).decrypter, ← sound.steady.configured]
    exact explicit
  · rcases linked.exchange sealing sealed outbound name answered with
      ⟨body, decrypter', answer, short, read, linked'⟩ | ⟨e, answer, long, linked'⟩
    · have length : body.length ≤ _ := (answer ▸ answered : Answered ..).length_le sealing
      exact .inl ⟨body, _, answer, length, short, by simp only [ClientChannel.decrypt, read],
        keeps _ linked'⟩
    · exact .inr ⟨e, answer, long, keeps _ linked'⟩

/-- What comes of a message that was sealed. If the channel can be used, there is an answer exactly
if both frames get through and what the application says can be sealed. -/
structure Sends (p : Primitives) (config : Config) (handler : Bytes → Bytes) (w : Session)
    (m : Moment) (index : Nat) (channel : ClientChannel) (plaintext ciphertext : Bytes)
    (answer : Except ChannelError Returned) (last : ClientChannel) (r : Registry)
    (arrival : Arrival) : Prop where
  called : w.call p m (.send index plaintext) = (answer, w.sent m index last r arrival)
  name : last.id = channel.id
  inMode : last.pair.InMode config.nonceMode
  confined : Confined channel.id w.service.registry r
  arrived : arrival.isFrame = true ↔ w.Delivered p m channel.id ciphertext
  live : w.Sure channel.id → ∀ id, r.live? id = w.service.registry.live? id
  answered : w.Sure channel.id → (answer = .ok (.answer (handler plaintext)) ↔
    w.Delivered p m channel.id ciphertext ∧ ¬ CipherState.tooLong (handler plaintext))
  keeps : w.Sure channel.id →
    arrival.isFrame = true ∨ w.service.config.nonceMode.isExplicit = true →
      Keeps config.nonceMode (w.serving r) last

theorem Sound.sends_lost (sound : Sound p config key handler w)
    (inside : w.channels[index]? = some channel)
    (seals : channel.encrypt p [] plaintext = .ok (ciphertext, channel'))
    (lost : ¬ m.Reaches (w.message m channel.id ciphertext).frame) :
    ∃ answer last r arrival, w.Sends p config handler m index channel plaintext ciphertext answer
      last r arrival := by
  have mem := List.mem_of_getElem? inside
  obtain ⟨e, arrival, called, unanswered⟩ := send_lost inside seals lost
  refine ⟨_, channel', _, arrival, called, ClientChannel.id_of_encrypt seals,
    ClientChannel.inMode_encrypt seals (sound.inMode channel mem), .refl _ _,
    iff_of_false (by simp [unanswered]) fun delivered => lost delivered.1, fun _ _ => rfl,
    fun sure => iff_of_false (by simp) fun all => lost all.1.1, fun sure kept => ?_⟩
  obtain ⟨h, c, live, found, linked⟩ := sound.linked mem sure
  obtain ⟨encrypter, sealed, rfl⟩ := ClientChannel.encrypt_eq seals
  refine .linked sure.settled live found (linked.lost ?_ sealed)
  rw [(sound.inMode channel mem).encrypter, ← sound.steady.configured]
  exact kept.resolve_left (by simp [unanswered])

theorem Sound.sends_delivered (sealing : p.Sealing) (sound : Sound p config key handler w)
    (inside : w.channels[index]? = some channel)
    (seals : channel.encrypt p [] plaintext = .ok (ciphertext, channel'))
    (delivered : w.Delivered p m channel.id ciphertext) :
    ∃ answer last r arrival, w.Sends p config handler m index channel plaintext ciphertext answer
      last r arrival := by
  have mem := List.mem_of_getElem? inside
  have same := ClientChannel.id_of_encrypt seals
  have inMode := ClientChannel.inMode_encrypt seals (sound.inMode channel mem)
  obtain ⟨r, served, confined⟩ := sound.confined_handled (p := p) mem m ciphertext
  have serves := fun sure => sound.serves sealing mem sure seals served
  have called := call_send inside seals (sound.exchange_message inside channel' delivered.1 served)
  rw [if_pos delivered.2, reply, DatagramClient.messageAnswer_replyTo] at called
  cases handled : (w.handled p m channel.id ciphertext).1 with
  | error e =>
    simp only [handled] at called
    have refused := fun sure => (serves sure).2.2.resolve_left (by simp [handled])
    refine ⟨_, channel', r, _, called, same, inMode, confined, iff_of_true rfl delivered,
      fun sure => (serves sure).1, fun sure => ?_, fun sure _ => ?_⟩
    · obtain ⟨-, -, long, -⟩ := refused sure
      exact iff_of_false (by simp) fun all => all.2 long
    · obtain ⟨-, -, -, keeps⟩ := refused sure
      exact keeps
  | ok body =>
    simp only [handled] at called
    have replied : w.Sure channel.id → ∃ last, ¬ CipherState.tooLong (handler plaintext) ∧
        channel'.decrypt p [] body = .ok (handler plaintext, last) ∧
        Keeps config.nonceMode (w.serving r) last := by
      intro sure
      obtain ⟨body', last, answer, -, all⟩ := (serves sure).2.2.resolve_right (by simp [handled])
      obtain rfl := Except.ok.inj (handled.symm.trans answer)
      exact ⟨last, all⟩
    cases opened : channel'.decrypt p [] body with
    | error e =>
      -- A channel that can be used opens the answer.
      have never : ¬ w.Sure channel.id := by
        intro sure
        obtain ⟨last, -, read, -⟩ := replied sure
        rw [opened] at read
        cases read
      simp only [opened] at called
      exact ⟨_, channel', r, _, called, same, inMode, confined, iff_of_true rfl delivered,
        fun sure => absurd sure never, fun sure => absurd sure never,
        fun sure => absurd sure never⟩
    | ok result =>
      obtain ⟨text, last⟩ := result
      simp only [opened] at called
      refine ⟨_, last, r, _, called, (ClientChannel.id_of_decrypt opened).trans same,
        ClientChannel.inMode_decrypt opened inMode, confined, iff_of_true rfl delivered,
        fun sure => (serves sure).1, fun sure => ?_, fun sure _ => ?_⟩
      · obtain ⟨last', short, read, -⟩ := replied sure
        rw [opened] at read
        obtain ⟨rfl, -⟩ := Prod.mk.inj (Except.ok.inj read)
        exact iff_of_true rfl ⟨delivered, short⟩
      · obtain ⟨last', -, read, keeps⟩ := replied sure
        rw [opened] at read
        obtain ⟨-, rfl⟩ := Prod.mk.inj (Except.ok.inj read)
        exact keeps

theorem Sound.sends (sealing : p.Sealing) (sound : Sound p config key handler w)
    (inside : w.channels[index]? = some channel)
    (seals : channel.encrypt p [] plaintext = .ok (ciphertext, channel')) (m : Moment) :
    ∃ answer last r arrival, w.Sends p config handler m index channel plaintext ciphertext answer
      last r arrival := by
  by_cases reaches : m.Reaches (w.message m channel.id ciphertext).frame
  · by_cases returns : m.Returns (w.reply p m channel.id ciphertext)
    · exact sound.sends_delivered sealing inside seals ⟨reaches, returns⟩
    · -- The server has served the message, but the client gets no answer.
      have mem := List.mem_of_getElem? inside
      obtain ⟨r, served, confined⟩ := sound.confined_handled (p := p) mem m ciphertext
      have serves := fun sure => sound.serves sealing mem sure seals served
      have called := call_send inside seals (sound.exchange_message inside channel' reaches served)
      rw [if_neg returns] at called
      exact ⟨_, channel', r, _, called, ClientChannel.id_of_encrypt seals,
        ClientChannel.inMode_encrypt seals (sound.inMode channel mem), confined,
        iff_of_false (by simp [Arrival.isFrame]) fun delivered => returns delivered.2,
        fun sure => (serves sure).1,
        fun sure => iff_of_false (by simp) fun all => returns all.1.2,
        fun sure kept => (serves sure).2.1 (kept.resolve_left (by simp [Arrival.isFrame]))⟩
  · exact sound.sends_lost inside seals reaches

/-- A message that the server cannot open fails. -/
theorem Sound.send_unopened (sound : Sound p config key handler w)
    (inside : w.channels[index]? = some channel)
    (seals : channel.encrypt p [] plaintext = .ok (ciphertext, channel'))
    {h : Handle} {c : Channel} {e : CipherError} (name : c.id = channel.id)
    (live : w.service.registry.live? channel.id = some h)
    (found : w.service.registry.channel? h = some c)
    (refused : c.pair.decrypter.decrypt p [] ciphertext = .error e) (m : Moment) :
    ∃ e, (w.call p m (.send index plaintext)).1 = .error e := by
  have mem := List.mem_of_getElem? inside
  by_cases reaches : m.Reaches (w.message m channel.id ciphertext).frame
  · obtain ⟨r, served, -⟩ := sound.confined_handled (p := p) mem m ciphertext
    have called := call_send inside seals (sound.exchange_message inside channel' reaches served)
    obtain ⟨s, received, -⟩ :=
      (sound.reaches mem name live found ciphertext).receive_refused refused m.now
    have failed : (w.handled p m channel.id ciphertext).1 = .error (.ofCipher e) := by
      rw [handled, Service.handleMessage, received]
    by_cases returns : m.Returns (w.reply p m channel.id ciphertext)
    · rw [if_pos returns, reply, DatagramClient.messageAnswer_replyTo, failed] at called
      exact ⟨_, congrArg Prod.fst called⟩
    · rw [if_neg returns] at called
      exact ⟨_, congrArg Prod.fst called⟩
  · obtain ⟨e, arrival, called, -⟩ := send_lost inside seals reaches
    exact ⟨e, congrArg Prod.fst called⟩

/-- Short messages get through, and so do short answers. -/
theorem Sound.delivered_of_short (sealing : p.Sealing) (sound : Sound p config key handler w)
    (mem : channel ∈ w.channels) (sure : w.Sure channel.id)
    (seals : channel.encrypt p [] plaintext = .ok (ciphertext, channel'))
    (delivers : m.Delivers)
    (message : plaintext.length + CipherState.nonceLength + CipherState.tagLength ≤ maxCarried)
    (reply : (handler plaintext).length + CipherState.nonceLength + CipherState.tagLength ≤
      maxCarried) : w.Delivered p m channel.id ciphertext := by
  constructor
  · obtain ⟨encrypter, sealed, -⟩ := ClientChannel.encrypt_eq seals
    have length := CipherState.length_of_encrypt sealing sealed
    exact (delivers _ (DatagramClient.fits_request (sound.spelled channel mem).admissible
      (.inl rfl) m.sized (by omega))).1
  · refine (delivers _ (DatagramClient.fits_replyTo_request w.client _ _ _ m.sized ?_)).2
    intro body answer
    obtain ⟨r, served, -⟩ := sound.confined_handled (p := p) mem m ciphertext
    rcases (sound.serves sealing mem sure seals served).2.2 with
      ⟨body', last, again, length, -⟩ | ⟨e, failed, -⟩
    · obtain rfl := Except.ok.inj (answer.symm.trans again)
      rw [maxCarried] at reply
      omega
    · rw [answer] at failed
      cases failed

/-- A message keeps what is known, whatever becomes of it. -/
theorem Sound.send (sealing : p.Sealing) (sound : Sound p config key handler w) (m : Moment)
    (index : Nat) (plaintext : Bytes) :
    Sound p config key handler (w.call p m (.send index plaintext)).2 := by
  cases inside : w.channels[index]? with
  | none => simpa [call, Caller.ask, inside] using sound
  | some channel =>
    cases seals : channel.encrypt p [] plaintext with
    | error e =>
      simpa [call, Caller.ask, inside, DatagramClient.messageRequest, seals, bind, Except.bind]
        using sound
    | ok sealed =>
      obtain ⟨answer, last, r, arrival, sends⟩ := sound.sends sealing inside seals m
      have served := sound.served_call m (.send index plaintext)
      rw [sends.called, sent, sends.name] at served ⊢
      refine sound.moved inside sends.name sends.inMode sends.confined (List.subset_append_left ..)
        (fun id doubt => (mem_doubtsOnSend ..).mpr (.inl doubt)) served fun certain => ?_
      rw [mem_doubtsOnSend] at certain
      simp only [true_and, not_or, Classical.not_not] at certain
      obtain ⟨certain, settled, kept⟩ := certain
      exact sends.keeps ⟨settled, certain⟩ kept

/-! ### Requests to close -/

def farewell (w : Session) (m : Moment) (id : ChannelId) (ciphertext : Bytes) : Request :=
  w.client.request id ciphertext m.token .close

def leaving (w : Session) (m : Moment) (index : Nat) : Session :=
  { w with toCaller := ⟨w.client, w.channels.eraseIdx index, w.drawn ++ w.draw m.token⟩ }

/-- What comes of a request to close that was sealed, by what has come back. -/
theorem call_close (inside : w.channels[index]? = some channel)
    (seals : channel.encryptClose p = .ok (ciphertext, channel'))
    (exchanged : exchange p (w.leaving m index) m (w.farewell m channel.id ciphertext) =
      (arrival, { w.leaving m index with toHosting := w.serving r })) :
    w.call p m (.close index) = ((w.client.closeAnswer arrival).map fun _ => .closed,
      { w.leaving m index with toHosting := w.serving r }) := by
  rw [farewell, leaving] at exchanged
  simp only [call, Caller.ask_close inside seals, exchanged, Caller.finish, channelsAfter, doubts,
    leaving]
  cases w.client.closeAnswer arrival <;> rfl

theorem Sound.exchange_close (sound : Sound p config key handler w) (mem : channel ∈ w.channels)
    (index : Nat) (reaches : m.Reaches (w.farewell m channel.id ciphertext).frame)
    {answer : Except ChannelError Unit}
    (handled : w.service.handleClose p m.now (w.service.config.codec.encode channel.id ciphertext) =
      (answer, { w.service with registry := r })) :
    exchange p (w.leaving m index) m (w.farewell m channel.id ciphertext) =
      (if m.Returns (replyTo (w.farewell m channel.id ciphertext).token (answer.map fun _ => []))
        then .frame (replyTo (w.farewell m channel.id ciphertext).token (answer.map fun _ => []))
        else .none, { w.leaving m index with toHosting := w.serving r }) := by
  have received : w.toHosting.receive p m.now w.peer
      (w.farewell m channel.id ciphertext).frame.encode m.draws m.fresh =
        (some ⟨w.peer, replyTo (w.farewell m channel.id ciphertext).token
          (answer.map fun _ => [])⟩, w.serving r) := by
    have inbound := sound.inbound mem ciphertext m.token .close
    have got := Hosting.receive_close p w.toHosting m.now w.peer
      (w.farewell m channel.id ciphertext).token
      (w.client.codec.encode channel.id ciphertext).query
      (w.client.codec.encode channel.id ciphertext).body m.draws m.fresh
    rw [farewell, inbound, handled] at got
    exact got
  exact exchange_answered (w := w.leaving m index) sound.inbox reaches rfl received (.inr rfl)

theorem close_lost (inside : w.channels[index]? = some channel)
    (seals : channel.encryptClose p = .ok (ciphertext, channel'))
    (lost : ¬ m.Reaches (w.farewell m channel.id ciphertext).frame) :
    ∃ e, w.call p m (.close index) =
      (.error e, { w.leaving m index with toHosting := w.serving w.service.registry }) := by
  obtain ⟨arrival, exchanged, unanswered⟩ :=
    exchange_lost (p := p) (w := w.leaving m index) lost
  have called := call_close inside seals (r := w.service.registry) exchanged
  cases arrival with
  | frame frame => cases unanswered
  | failed e => exact ⟨_, called⟩
  | none => exact ⟨_, called⟩

/-- What comes of a request to close. If the channel can be used, and the request gets through, its
name is free, and no other name has changed. -/
structure Closes (p : Primitives) (w : Session) (m : Moment) (index : Nat)
    (channel : ClientChannel) (ciphertext : Bytes) (answer : Except ChannelError Returned)
    (r : Registry) : Prop where
  called : w.call p m (.close index) =
    (answer, { w.leaving m index with toHosting := w.serving r })
  confined : Confined channel.id w.service.registry r
  freed : w.Sure channel.id → m.Reaches (w.farewell m channel.id ciphertext).frame →
    r.slots[channel.id]? = none
  answered : w.Sure channel.id → (answer = .ok .closed ↔
    m.Reaches (w.farewell m channel.id ciphertext).frame ∧
      m.Returns (replyTo (w.farewell m channel.id ciphertext).token (.ok [])))

theorem Sound.closes (sealing : p.Sealing) (sound : Sound p config key handler w)
    (inside : w.channels[index]? = some channel)
    (seals : channel.encryptClose p = .ok (ciphertext, channel')) (m : Moment) :
    ∃ answer r, w.Closes p m index channel ciphertext answer r := by
  have mem := List.mem_of_getElem? inside
  by_cases reaches : m.Reaches (w.farewell m channel.id ciphertext).frame
  · rcases handled : w.service.handleClose p m.now
      (w.service.config.codec.encode channel.id ciphertext) with ⟨answer, service⟩
    obtain ⟨r, rfl⟩ : ∃ r, service = { w.service with registry := r } := by
      have service := Service.handleClose_service p w.service m.now
        (w.service.config.codec.encode channel.id ciphertext)
      rwa [handled] at service
    have confined : Confined channel.id w.service.registry r := by
      rcases Service.handleClose_cases p sound.steady.running.named m.now
        (w.service.config.codec.encode channel.id ciphertext) with
          ⟨e, unread, -⟩ | ⟨id, octets, read, confined⟩
      · rw [sound.decode mem] at unread
        cases unread
      · rw [sound.decode mem] at read
        obtain ⟨rfl, -⟩ := Prod.mk.inj (Except.ok.inj read)
        rwa [handled] at confined
    have served : w.Sure channel.id → answer = .ok () ∧ r.slots[channel.id]? = none := by
      intro sure
      obtain ⟨h, c, live, found, linked⟩ := sound.linked mem sure
      obtain ⟨encrypter, sealed, -⟩ := ClientChannel.encrypt_eq seals
      obtain ⟨decrypter, opened, -⟩ := linked.outbound.deliver sealing sealed
      obtain ⟨s, again, changes⟩ := (sound.reaches mem linked.name live found
        ciphertext).handleClose_opened opened m.now trivial
      rw [handled] at again
      obtain ⟨rfl, same⟩ := Prod.mk.inj again
      obtain rfl : r = s := congrArg Service.registry same
      have freed := changes.freed trivial
      exact ⟨rfl, linked.name ▸ freed⟩
    have called := call_close inside seals (sound.exchange_close mem index reaches handled)
    refine ⟨_, r, called, confined, fun sure _ => (served sure).2, fun sure => ?_⟩
    obtain ⟨rfl, -⟩ := served sure
    by_cases returns : m.Returns (replyTo (w.farewell m channel.id ciphertext).token (.ok []))
    · rw [Except.map, if_pos returns, DatagramClient.closeAnswer_replyTo]
      exact iff_of_true rfl ⟨reaches, returns⟩
    · rw [Except.map, if_neg returns]
      exact iff_of_false nofun fun all => returns all.2
  · obtain ⟨e, called⟩ := close_lost inside seals reaches
    exact ⟨_, _, called, .refl _ _, fun _ gets => absurd gets reaches,
      fun _ => iff_of_false nofun fun all => reaches all.1⟩

/-- A request to close that the server cannot open fails. -/
theorem Sound.close_unopened (sound : Sound p config key handler w)
    (inside : w.channels[index]? = some channel)
    (seals : channel.encryptClose p = .ok (ciphertext, channel'))
    {h : Handle} {c : Channel} {e : CipherError} (name : c.id = channel.id)
    (live : w.service.registry.live? channel.id = some h)
    (found : w.service.registry.channel? h = some c)
    (refused : c.pair.decrypter.decrypt p closeMarker ciphertext = .error e) (m : Moment) :
    ∃ e, (w.call p m (.close index)).1 = .error e := by
  have mem := List.mem_of_getElem? inside
  by_cases reaches : m.Reaches (w.farewell m channel.id ciphertext).frame
  · obtain ⟨r, received, -⟩ :=
      (sound.reaches mem name live found ciphertext).receive_refused refused m.now
    have handled : w.service.handleClose p m.now
        (w.service.config.codec.encode channel.id ciphertext) =
          (.error (.ofCipher e), { w.service with registry := r }) := by
      rw [Service.handleClose, received]
    have called := call_close inside seals (sound.exchange_close mem index reaches handled)
    rw [Except.map] at called
    by_cases returns : m.Returns
      (replyTo (w.farewell m channel.id ciphertext).token (.error (.ofCipher e)))
    · rw [if_pos returns, DatagramClient.closeAnswer_replyTo] at called
      exact ⟨_, congrArg Prod.fst called⟩
    · rw [if_neg returns] at called
      exact ⟨_, congrArg Prod.fst called⟩
  · obtain ⟨e, called⟩ := close_lost inside seals reaches
    exact ⟨e, congrArg Prod.fst called⟩

/-- A channel that is given up leaves what is known of the others. -/
theorem Sound.close (sealing : p.Sealing) (sound : Sound p config key handler w) (m : Moment)
    (index : Nat) : Sound p config key handler (w.call p m (.close index)).2 := by
  cases inside : w.channels[index]? with
  | none => simpa [call, Caller.ask, inside] using sound
  | some channel =>
    cases seals : channel.encryptClose p with
    | error e =>
      have called : (w.call p m (.close index)).2 = { w with
          toCaller := ⟨w.client, w.channels.eraseIdx index, w.drawn⟩
          toHosting := w.serving w.service.registry } := by
        simp only [call, Caller.ask, inside, DatagramClient.closeRequest, seals, bind, Except.bind]
        rfl
      rw [called]
      exact sound.dropped inside (.refl _ _) (fun _ mem => mem) sound.served
    | ok sealed =>
      obtain ⟨answer, r, closes⟩ := sound.closes sealing inside seals m
      have served := sound.served_call m (.close index)
      rw [closes.called] at served ⊢
      exact sound.dropped inside closes.confined (List.subset_append_left ..) served

/-! ### Requests for the key -/

theorem Sound.fetch (sound : Sound p config key handler w) (m : Moment) :
    (w.call p m .fetchKey).2 = w := by
  have exchanged : ∃ arrival, exchange p w m DatagramClient.keyRequest = (arrival, w) := by
    by_cases reaches : m.Reaches DatagramClient.keyRequest.frame
    · have received : w.toHosting.receive p m.now w.peer
          DatagramClient.keyRequest.frame.encode m.draws m.fresh =
            (some ⟨w.peer, keyAnswer w.service⟩, w.toHosting) := by
        simp [Hosting.receive, DatagramClient.keyRequest, Frame.decode_encode, dispatch]
      exact ⟨_, exchange_answered sound.inbox reaches rfl received (.inr rfl)⟩
    · obtain ⟨arrival, exchanged, -⟩ := exchange_lost (p := p) (w := w) reaches
      exact ⟨arrival, exchanged⟩
  obtain ⟨arrival, exchanged⟩ := exchanged
  simp only [call, Caller.ask, exchanged, Caller.finish, doubts]
  cases w.client.keyOf arrival <;> rfl

end Session

end SecureChannel
