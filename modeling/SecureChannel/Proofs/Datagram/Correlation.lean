import SecureChannel.Proofs.Datagram.Dialogue
import SecureChannel.Proofs.Service.EndToEnd

/-!
# Answers belong to their messages

A client of datagrams tells replies apart by their tokens. Where every request has a token of its
own, a call that returns an answer returns what the application says to the very message that was
sent, whatever the network has lost, delayed, reordered or repeated and however often calls have
ended without an answer. `answered_by_handler` says so for every codec except token reuse.

Under token reuse all messages on a channel have the token of its handshake. So a reply that comes
late, after its call has ended, is taken for the answer to the next message: it has the right token,
and the channel opens it, because it is the next reply that the channel has not seen yet. This is
`late_reply_taken`. All that can be said under token reuse is that the application has given the
answer to some message of the client.

Two things are asked of the cryptography. Nothing was opened that was sealed differently, in either
direction, and nothing was opened by the client that the server has not sealed as an answer.
-/

namespace SecureChannel.Dialogue

open Registry DatagramServer

variable {p : Primitives} {config : Config} {key : Option StaticKey} {handler : Bytes → Bytes}
variable {w : Dialogue}

/-- What was opened in a dialogue was sealed in it, and in the same way. -/
structure Secure (w : Dialogue) : Prop where
  up : Authentic (w.requests.filterMap Asking.message) (w.served.map Answering.message)
  down : Authentic (w.served.map Answering.answer) (w.concluded.map Concluded.answer)
  sealed : ∀ d ∈ w.concluded, ∃ a ∈ w.served, a.answer.octets = d.answer.octets

/-- Where tokens are drawn for every request, a token belongs to one request. -/
theorem Sound.same_request (sound : Sound p config key handler w)
    (other : config.codec ≠ .tokenReuse) (fresh : w.drawn.Nodup) {one two : Asking}
    (mem : one ∈ w.requests) (mem' : two ∈ w.requests)
    (same : one.request.token = two.request.token) (known : one.request.token ≠ none) :
    one = two := by
  obtain ⟨token, token_eq⟩ := Option.ne_none_iff_exists'.mp known
  rw [← sound.tokens other, List.Nodup, List.pairwise_filterMap, List.pairwise_iff_getElem]
    at fresh
  obtain ⟨i, inside, rfl⟩ := List.mem_iff_getElem.mp mem
  obtain ⟨j, inside', rfl⟩ := List.mem_iff_getElem.mp mem'
  rcases Nat.lt_trichotomy i j with less | rfl | more
  · exact absurd rfl (fresh i j inside inside' less token token_eq token (same ▸ token_eq))
  · rfl
  · exact absurd rfl (fresh j i inside' inside more token (same ▸ token_eq) token token_eq)

/-- What the server has opened of a message is what the client has sealed. -/
theorem Sound.message_eq (sound : Sound p config key handler w) (sealing : p.Sealing)
    (secure : w.Secure) {a : Answering} (mem : a ∈ w.served) {q : Asking} (asked : q ∈ w.requests)
    {e : Seal} (message : q.message = some e) (ciphertext : e.ciphertext = a.message.ciphertext) :
    a.message.plaintext = e.plaintext := by
  have carries := (sound.requests q asked).message e message
  have served := sound.served a mem
  have octets := Opening.octets_eq (served.mode.1.trans carries.mode.symm) ciphertext.symm
  obtain ⟨key, number, ad⟩ := secure.up e (List.mem_filterMap.mpr ⟨q, asked, message⟩) a.message
    (List.mem_map_of_mem mem) octets
  exact Opening.plaintext_eq sealing carries.made served.opened octets key number ad

/-- What the client has opened of an answer is what the application has said. -/
theorem Sound.answer_eq (sound : Sound p config key handler w) (sealing : p.Sealing)
    (secure : w.Secure) {a : Answering} (served : a ∈ w.served) {d : Concluded}
    (mem : d ∈ w.concluded) (octets : d.answer.octets = a.answer.octets) :
    d.answer.plaintext = handler a.message.plaintext := by
  have answers := sound.served a served
  obtain ⟨key, number, ad⟩ := secure.down a.answer (List.mem_map_of_mem served) d.answer
    (List.mem_map_of_mem mem) octets
  rw [Opening.plaintext_eq sealing answers.sealed (sound.concluded d mem).opened octets key number
    ad, answers.plaintext]

/-- Where tokens are drawn for every request, an answer is what the application says to the message
of its call. -/
theorem Sound.answered (sound : Sound p config key handler w) (sealing : p.Sealing)
    (fresh : w.drawn.Nodup) (secure : w.Secure) (other : config.codec ≠ .tokenReuse)
    {d : Concluded} (mem : d ∈ w.concluded) :
    d.answer.plaintext = handler d.message.plaintext := by
  have concludes := sound.concluded d mem
  obtain ⟨q, asked, request, message⟩ := concludes.request
  have known := ((sound.requests q asked).message d.message message).token
  have explained := concludes.explained
  rw [← request] at explained
  rcases explained with ⟨a, served, token, ciphertext⟩ | ⟨q', asked', unsealed, token⟩
  · -- The reply answers a message under the token of the call, and that is the call's message.
    have answers := sound.served a served
    obtain ⟨q', asked', e, message', token', ciphertext'⟩ := answers.request
    obtain rfl := sound.same_request other fresh asked asked' (token'.trans token).symm known
    obtain rfl := Option.some.inj (message.symm.trans message')
    have octets := Opening.octets_eq (concludes.mode.trans answers.mode.2.symm) ciphertext.symm
    rw [sound.answer_eq sealing secure served mem octets,
      sound.message_eq sealing secure served asked message ciphertext']
  · -- No other request has the token of the call.
    obtain rfl := sound.same_request other fresh asked asked' token.symm known
    rw [message] at unsealed
    cases unsealed

/-- Where tokens are drawn for every request, an answer is what the application says to the message
of its call. Under every codec it is what the application says to a message of the client. Every
answer that a call returns goes on record. -/
theorem answered_by_handler (sealing : p.Sealing) (reached : Reachable p config key handler w)
    (fresh : w.drawn.Nodup) (secure : w.Secure) :
    (∀ d ∈ w.concluded,
      (config.codec ≠ .tokenReuse → d.answer.plaintext = handler d.message.plaintext) ∧
      ∃ q ∈ w.requests, ∃ e, q.message = some e ∧ d.answer.plaintext = handler e.plaintext) ∧
    ∀ call incoming outage plaintext, w.call = some call →
      (w.toCaller.finish p call.purpose (arrival call.request incoming outage)).1 =
          .ok (.answer plaintext) →
        ∃ d ∈ (w.step p (.finish incoming outage)).concluded,
          call.message = some d.message ∧ d.answer.plaintext = plaintext := by
  have sound := reached.sound
  refine ⟨fun d mem => ⟨fun other => sound.answered sealing fresh secure other mem, ?_⟩, ?_⟩
  · obtain ⟨a, served, octets⟩ := secure.sealed d mem
    obtain ⟨q, asked, e, message, -, ciphertext⟩ := (sound.served a served).request
    refine ⟨q, asked, e, message, ?_⟩
    rw [sound.answer_eq sealing secure served mem octets.symm,
      sound.message_eq sealing secure served asked message ciphertext]
  · intro call incoming outage plaintext waiting returned
    obtain ⟨d, conclusion, message, answer⟩ := sound.recorded waiting returned
    refine ⟨d, ?_, message, answer⟩
    simp only [step, waiting, conclusion]
    exact List.mem_append_right _ (List.mem_singleton_self d)

/-! ### A message that is answered in time, and one that is not -/

/-- Where the client is, and where the server sees it. -/
def home : Endpoint := .v4 .loopback 5683

def greetingToken : Bytes := List.replicate tokenLength 1

def messageToken : Bytes := List.replicate tokenLength 2

def laterToken : Bytes := List.replicate tokenLength 3

def greeted (codec : Codec) : DatagramClient :=
  { DatagramClient.new home (.peerNamed codec) with token := some greetingToken }

section Steps

variable {index : Nat} {channel after : ClientChannel} {body plaintext : Bytes}

theorem step_ask {wish : Wish} {token : Bytes} {call : Call} {caller : Caller}
    (asked : w.toCaller.ask p w.service.config token wish = (.ok call, caller)) :
    w.step p (.ask wish token) = w.await caller ⟨call, w.toCaller.sealing p wish⟩ := by
  simp only [step, asked]

/-- The server answers the client with a frame that fits a datagram. -/
theorem step_received {now : Nat} {octets : Bytes} {draws : Nat → Nat} {fresh : Bytes32}
    {frame : Frame} {hosting : Hosting}
    (received : w.toHosting.receive p now w.peer octets draws fresh =
      (some ⟨w.peer, frame⟩, hosting)) (fits : frame.fits = true) :
    w.step p (.host (.datagram now w.peer octets draws fresh)) =
      { w with
        toHosting := hosting
        replies := w.replies ++ [frame.encode]
        served := w.served ++ w.answering p (.datagram now w.peer octets draws fresh) } := by
  have sent : w.sending p (.datagram now w.peer octets draws fresh) = [frame.encode] := by
    simp only [sending, Hosting.handed, received]
    rw [Option.filter_some_pos (by simp [fits])]
    rfl
  simp only [step, Hosting.step, received, sent]

theorem step_settled {now : Nat} {delivery : Delivery} {hosting : Hosting}
    (settled : w.toHosting.settle now index delivery = (none, hosting)) (p : Primitives) :
    w.step p (.host (.settle now index delivery)) = { w with toHosting := hosting } := by
  simp [step, Hosting.step, sending, Hosting.handed, answering, settled]

/-- The first reply under its token is what a call takes. -/
theorem arrival_reply (request : Request) (body : Bytes) (outage : Option IoError) :
    arrival request [(Frame.reply request.token .success body).encode] outage =
      .frame (.reply request.token .success body) := by
  simp [arrival, Request.awaitAnswer, Request.accepts, Frame.decode_encode, Frame.token?]

/-- A client that gets the response has its channel. -/
theorem step_joined {request : Request} {handshake : ClientHandshake}
    (waiting : w.call = some ⟨⟨request, .handshake handshake⟩, none⟩)
    (finished : handshake.finish p (.reply body) w.client.channelTag = .ok channel) :
    w.step p (.finish [(Frame.reply request.token .success body).encode] none) =
      { w with
        toCaller := { w.toCaller with channels := w.channels ++ [channel] }
        call := none } := by
  have exchanged : w.client.exchange handshake.config.handshakeTimeout
      (.frame (.reply request.token .success body)) = .reply body := rfl
  simp only [step, waiting, arrival_reply, Caller.finish, exchanged, finished, Caller.conclusion,
    Option.toList_none, List.append_nil]

/-- A call takes a reply under its token, if its channel opens it. -/
theorem step_finish {request : Request} {e : Seal}
    (waiting : w.call = some ⟨⟨request, .message index⟩, some e⟩)
    (inside : w.channels[index]? = some channel)
    (opens : channel.decrypt p [] body = .ok (plaintext, after)) :
    w.step p (.finish [(Frame.reply request.token .success body).encode] none) =
      { w with
        toCaller := { w.toCaller with channels := w.channels.set index after }
        call := none
        concluded := w.concluded ++
          [⟨request, e, ⟨channel.pair.decrypter, [], body, plaintext⟩⟩] } := by
  have success : w.client.successBody (.frame (.reply request.token .success body)) = .ok body :=
    rfl
  simp only [step, waiting, arrival_reply, Caller.finish, inside, DatagramClient.messageAnswer,
    success, opens, Caller.conclusion, Option.map_some, Option.toList_some]

theorem step_timeout {request : Request} {e : Seal}
    (waiting : w.call = some ⟨⟨request, .message index⟩, some e⟩)
    (inside : w.channels[index]? = some channel) :
    w.step p (.finish [] none) = { w with call := none } := by
  have failed : w.client.successBody .none = .error (.timeout w.client.timeout) := rfl
  simp only [step, waiting, arrival, Request.awaitAnswer, Caller.finish, inside,
    DatagramClient.messageAnswer, failed, Caller.conclusion, Option.toList_none, List.append_nil]

end Steps

/-- Nothing has happened yet. The server reverses what it is sent. -/
def unmet (codec : Codec) : Dialogue :=
  ⟨⟨.new home (.peerNamed codec), [], []⟩, ⟨⟨.reverser codec, []⟩, []⟩, home, none, [], [], [], []⟩

theorem reachable_unmet {codec : Codec} (carriesTag : codec.requiresTransportId = true) :
    Reachable .standard (.peerNamed codec) none List.reverse (unmet codec) :=
  .start (.start (Service.new_peerNamed carriesTag)) home home

def greeting (handshake : ClientHandshake) : Request :=
  ⟨.handshake (some greetingToken) handshake.request, some greetingToken⟩

def hailing (codec : Codec) (handshake : ClientHandshake) : Dialogue :=
  (unmet codec).await ((unmet codec).hail greetingToken)
    ⟨⟨greeting handshake, .handshake handshake⟩, none⟩

/-- The client has its channel, and the server has registered it. -/
structure Paired (codec : Codec) (tag : Bytes) (up down : Bytes32) (remote : Option PublicKey)
    (w : Dialogue) : Prop where
  reached : Reachable .standard (.peerNamed codec) none List.reverse w
  peer : w.peer = home
  client : w.client = greeted codec
  channels : w.channels = [⟨.transport tag, .new up down .implicit, [], remote⟩]
  drawn : w.drawn = [greetingToken]
  seals : w.requests.filterMap Asking.message = []
  served : w.served = []
  concluded : w.concluded = []
  opens : (Service.reverser codec).registry.Opens (.transport tag) (.new down up .implicit) 0
    w.service.registry

theorem paired_of_handshake {codec : Codec} (carriesTag : codec.requiresTransportId = true)
    {tag : Bytes} (spells : Spells codec home greetingToken (.transport tag))
    (fair : ChannelId.decode .transport tag = .ok (.transport tag)) :
    ∃ up down remote w, Paired codec tag up down remote w := by
  have known : transportTag codec (some greetingToken) home = some tag := spells.tag carriesTag
  obtain ⟨_, response, up, down, welcomes⟩ :=
    Service.welcomes_standard (s := .reverser codec) rfl rfl rfl fair
  obtain ⟨handshake, started, rfl, remote, finished⟩ := welcomes.joins
  have quiet : (Service.reverser codec).earlyReply [] = [] := rfl
  have begun : Hello.plain.start .standard (.peerNamed codec) = .ok handshake := started
  have asked : Reachable .standard (.peerNamed codec) none List.reverse
      (hailing codec handshake) := by
    have asked := (reachable_unmet carriesTag).step (.ask (.connect .plain) greetingToken) trivial
    rwa [step_ask (Caller.ask_connect begun _ _)] at asked
  have room : (Service.reverser codec).registry.slots[ChannelId.transport tag]? = none →
      (Service.reverser codec).registry.isFull = false := fun _ => by
    simp [Service.reverser, Registry.new, isFull, Config.peerNamed, Config.limits, Config.default]
  -- The server gets the request, answers it, and registers the channel.
  have length := ClientHandshake.length_request_le Primitives.standard_sealing started
  have request : (greeting handshake).frame.fits = true :=
    Frame.fits_handshake (Nat.le_trans (Nat.add_le_add_left length _) (by decide))
  have reply : (Frame.reply (some greetingToken) .success response).fits = true :=
    Frame.fits_reply (Nat.le_trans (Nat.add_le_add_left welcomes.short _) (by rw [quiet]; decide))
  have received : (hailing codec handshake).toHosting.receive .standard 0
      (hailing codec handshake).peer (greeting handshake).frame.encode (fun _ => 0) (.ofNatLE 9) =
        (some ⟨home, .reply (greeting handshake).token .success response⟩, _) :=
    Hosting.receive_welcomes (w := (hailing codec handshake).toHosting) welcomes known 0 fun _ => 0
  have answered := asked.step (.host (.datagram 0 (hailing codec handshake).peer
    (greeting handshake).frame.encode (fun _ => 0) (.ofNatLE 9)))
    fun _ => ⟨_, List.mem_singleton_self _, request, rfl⟩
  rw [step_received (w := hailing codec handshake) received reply] at answered
  have registered := answered.step (.host (.settle 0 0 .delivered)) trivial
  rw [step_settled (Hosting.settle_delivered rfl room 0)] at registered
  have joined := registered.step
    (.finish [(Frame.reply (greeting handshake).token .success response).encode] none)
    (by simp [Faithful, hailing, unmet, await, greeting])
  have tagged : (greeted codec).channelTag = some tag := known
  rw [← tagged] at finished
  rw [step_joined rfl finished] at joined
  refine ⟨up, down, remote, _, joined, rfl, rfl, ?_, rfl, rfl, ?_, rfl, opens_setLive ..⟩
  · rw [quiet]
    rfl
  · simp [hailing, unmet, await, greeting, answering, Frame.decode_encode]

def carrying (codec : Codec) (tag ciphertext : Bytes) : Request :=
  (greeted codec).request (.transport tag) ciphertext messageToken .message

theorem not_tooLong_of_short {text : Bytes} (short : text.length ≤ 64) :
    ¬ CipherState.tooLong text := by
  simp only [CipherState.tooLong, CipherState.maxBlocks, UInt32.size]
  omega

theorem length_of_new {key : Bytes32} {text ciphertext : Bytes} {next : CipherState}
    (sealed : (CipherState.new key .implicit).encrypt .standard [] text = .ok (ciphertext, next)) :
    ciphertext.length = text.length + 16 := by
  obtain ⟨-, -, rfl, -⟩ := CipherState.encrypt_ok_iff.mp sealed
  exact Primitives.standard_sealing.length_encrypt ..

section Message

variable {codec : Codec} {tag message ciphertext : Bytes} {up down : Bytes32}
variable {remote : Option PublicKey} {next : CipherState}

theorem length_messageToken : messageToken.length = tokenLength :=
  List.length_replicate

theorem fits_carrying (fair : ChannelId.decode .transport tag = .ok (.transport tag))
    (short : ciphertext.length ≤ maxCarried) :
    (carrying codec tag ciphertext).frame.fits = true :=
  DatagramClient.fits_request (ChannelId.admissible_of_decode fair).2 (.inl rfl)
    length_messageToken short

theorem fits_reply_carrying {answer : Bytes} (short : answer.length ≤ 40000) :
    (Frame.reply (carrying codec tag ciphertext).token .success answer).fits = true := by
  change (replyTo (carrying codec tag ciphertext).token (.ok answer)).fits = true
  refine DatagramClient.fits_replyTo_request (greeted codec) (.transport tag) ciphertext .message
    length_messageToken ?_
  rintro body ⟨⟩
  exact short

/-- The server opens the first message of the client and seals the answer. -/
theorem Paired.serves (paired : Paired codec tag up down remote w)
    (spells : Spells codec home greetingToken (.transport tag))
    (fair : ChannelId.decode .transport tag = .ok (.transport tag)) (short : message.length ≤ 64)
    (sealed : (CipherState.new up .implicit).encrypt .standard [] message =
      .ok (ciphertext, next)) :
    ∃ answer after hosting,
      w.toHosting.receive .standard 0 w.peer (carrying codec tag ciphertext).frame.encode
          (fun _ => 0) (.ofNatLE 9) =
        (some ⟨w.peer, .reply (carrying codec tag ciphertext).token .success answer⟩, hosting) ∧
      w.answering .standard (.datagram 0 w.peer (carrying codec tag ciphertext).frame.encode
          (fun _ => 0) (.ofNatLE 9)) =
        [⟨(carrying codec tag ciphertext).token, ⟨.new up .implicit, [], ciphertext, message⟩,
          ⟨.new down .implicit, [], message.reverse, answer⟩⟩] ∧
      answer.length = message.length + 16 ∧
      (CipherState.new down .implicit).decrypt .standard [] answer =
        .ok (message.reverse, after) := by
  obtain ⟨receiver, opened, -⟩ := (CipherState.inStep_new up .implicit).deliver
    Primitives.standard_sealing sealed
  have short' : message.reverse.length ≤ 64 := by simpa using short
  obtain ⟨answer, sender, sealed'⟩ := CipherState.encrypt_isOk .standard []
    (CipherState.nonce_new_ne_lastNonce down .implicit) (not_tooLong_of_short short')
  obtain ⟨after, opened', -⟩ := (CipherState.inStep_new down .implicit).deliver
    Primitives.standard_sealing sealed'
  obtain ⟨⟨configured, -, -⟩, -, -, -, handler⟩ := paired.reached.sound.hosted.started
  have arrives : inbound w.service.config.codec w.peer (carrying codec tag ciphertext).token
      (codec.encode (.transport tag) ciphertext).query
      (codec.encode (.transport tag) ciphertext).body =
        codec.encode (.transport tag) ciphertext := by
    rw [configured, paired.peer]
    exact DatagramClient.inbound_request (c := greeted codec) spells (fun _ => rfl) ..
  -- The message finds the client's channel, which opens it and seals the answer.
  have decoded : w.service.config.codec.decode w.service.config.idScheme
      (codec.encode (.transport tag) ciphertext) = .ok (.transport tag, ciphertext) := by
    rw [configured]
    exact codec.decode_encode (ChannelId.admissible_of_decode fair).2 ciphertext
  rw [← handler] at sealed'
  obtain ⟨_, _, received, -⟩ := Service.receive_isOk 0 decoded paired.opens.live?
    paired.opens.channel? opened
  have handled := Service.handleMessage_isOk 0 decoded paired.opens.live? paired.opens.channel?
    opened sealed'
  have exchange := Service.answersTo_of_ok (congrArg Prod.fst received) decoded handled
    paired.opens.channel?
  rw [handler] at exchange
  have read : Frame.decode (carrying codec tag ciphertext).frame.encode =
      .ok (.message (carrying codec tag ciphertext).token
        (codec.encode (.transport tag) ciphertext).query
        (codec.encode (.transport tag) ciphertext).body) := Frame.decode_encode _
  have handed := Hosting.receive_message .standard w.toHosting 0 w.peer
    (carrying codec tag ciphertext).token (codec.encode (.transport tag) ciphertext).query
    (codec.encode (.transport tag) ciphertext).body (fun _ => 0) (.ofNatLE 9)
  rw [arrives, handled] at handed
  refine ⟨answer, after, _, handed, ?_, ?_, opened'⟩
  · rw [answering, read]
    simp only [if_true, arrives, exchange, List.map_cons, List.map_nil]
    rfl
  · rw [handler] at sealed'
    rw [length_of_new sealed', List.length_reverse]

/-- The client has sent its first message, and the answer of the server is on its way. -/
structure OnItsWay (codec : Codec) (tag : Bytes) (e : Seal) (a : Answering)
    (channel : ClientChannel) (w : Dialogue) : Prop where
  reached : Reachable .standard (.peerNamed codec) none List.reverse w
  client : w.client = greeted codec
  channels : w.channels = [channel]
  name : channel.id = .transport tag
  call : w.call = some ⟨⟨carrying codec tag e.ciphertext, .message 0⟩, some e⟩
  drawn : w.drawn.Nodup
  seals : w.requests.filterMap Asking.message = [e]
  served : w.served = [a]
  concluded : w.concluded = []
  reply : (Frame.reply (carrying codec tag e.ciphertext).token .success
    a.answer.ciphertext).encode ∈ w.replies
  unused : channel.pair.encrypter.nonce ≠ CipherState.lastNonce
  opens : ∃ after, channel.decrypt .standard [] a.answer.ciphertext =
    .ok (e.plaintext.reverse, after)
  up : a.message = ⟨e.sender, e.ad, e.ciphertext, e.plaintext⟩
  down : a.answer = ⟨channel.pair.decrypter, [], e.plaintext.reverse, a.answer.ciphertext⟩

theorem Paired.onItsWay (paired : Paired codec tag up down remote w)
    (spells : Spells codec home greetingToken (.transport tag))
    (fair : ChannelId.decode .transport tag = .ok (.transport tag)) (message : Bytes)
    (short : message.length ≤ 64) :
    ∃ e a channel w, OnItsWay codec tag e a channel w ∧ e.plaintext = message := by
  obtain ⟨ciphertext, next, sealed⟩ := CipherState.encrypt_isOk .standard []
    (CipherState.nonce_new_ne_lastNonce up .implicit) (not_tooLong_of_short short)
  obtain ⟨answer, after, hosting, received, answers, length, opened⟩ :=
    paired.serves spells fair short sealed
  let channel : ClientChannel := ⟨.transport tag, ⟨next, .new down .implicit⟩, [], remote⟩
  have sends : ClientChannel.encrypt .standard
      ⟨.transport tag, .new up down .implicit, [], remote⟩ [] message =
        .ok (ciphertext, channel) := by
    simp only [ClientChannel.encrypt, CipherPair.new, sealed, channel]
  have inside : w.channels[0]? = some ⟨.transport tag, .new up down .implicit, [], remote⟩ := by
    rw [paired.channels]
    rfl
  let e : Seal := ⟨.new up .implicit, [], message, ciphertext⟩
  let v := w.await ⟨greeted codec, [channel], w.drawn ++ w.draw messageToken⟩
    ⟨⟨carrying codec tag ciphertext, .message 0⟩, some e⟩
  have asked : Reachable .standard (.peerNamed codec) none List.reverse v := by
    have asked := paired.reached.step (.ask (.send 0 message) messageToken) trivial
    rwa [step_ask (Caller.ask_send inside sends _ _), Caller.sealing_send inside sends,
      paired.client, paired.channels] at asked
  have request : (carrying codec tag ciphertext).frame.fits = true := by
    refine fits_carrying fair ?_
    rw [length_of_new sealed, maxCarried]
    omega
  have reply : (Frame.reply (carrying codec tag ciphertext).token .success answer).fits = true := by
    refine fits_reply_carrying ?_
    rw [length]
    omega
  have replied := asked.step (.host (.datagram 0 v.peer (carrying codec tag ciphertext).frame.encode
    (fun _ => 0) (.ofNatLE 9))) fun _ =>
      ⟨_, List.mem_append_right _ (List.mem_singleton_self _), request, rfl⟩
  rw [step_received (w := v) received reply] at replied
  refine ⟨e, ⟨(carrying codec tag ciphertext).token, ⟨.new up .implicit, [], ciphertext, message⟩,
    ⟨.new down .implicit, [], message.reverse, answer⟩⟩, channel, _,
    ⟨replied, rfl, rfl, rfl, rfl, ?_, ?_, ?_, paired.concluded, ?_, ?_,
      ⟨{ channel with pair := ⟨next, after⟩ }, ?_⟩, rfl, rfl⟩, rfl⟩
  · -- Under token reuse no further token is drawn.
    change (w.drawn ++ w.draw messageToken).Nodup
    rw [paired.drawn, Caller.draw]
    split <;> decide
  · change (w.requests ++ [_]).filterMap Asking.message = [e]
    rw [List.filterMap_append, paired.seals]
    rfl
  · change w.served ++ _ = _
    rw [paired.served]
    exact answers
  · exact List.mem_append_right _ (List.mem_singleton_self _)
  · obtain ⟨-, -, -, rfl⟩ := CipherState.encrypt_ok_iff.mp sealed
    exact (by decide : (0 : UInt64) + 1 ≠ CipherState.lastNonce)
  · simp [ClientChannel.decrypt, channel, opened, e]

end Message

/-- Where one answer was sealed and opened, and no other message has the octets of the one that it
answers, all is as it was sealed. -/
theorem secure_of_one {e : Seal} {others : List Seal} {a : Answering} {d : Concluded}
    (seals : w.requests.filterMap Asking.message = e :: others) (served : w.served = [a])
    (concluded : w.concluded = [d]) (up : a.message = ⟨e.sender, e.ad, e.ciphertext, e.plaintext⟩)
    (apart : ∀ other ∈ others, other.octets ≠ e.octets)
    (down : d.answer = ⟨a.answer.sender, a.answer.ad, a.answer.ciphertext, a.answer.plaintext⟩) :
    w.Secure := by
  refine ⟨?_, ?_, ?_⟩
  · rw [seals, served]
    intro other mem o mem' octets
    obtain rfl : o = a.message := List.mem_singleton.mp mem'
    rw [up] at octets ⊢
    rcases List.mem_cons.mp mem with rfl | mem
    · exact ⟨rfl, rfl, rfl⟩
    · exact absurd octets.symm (apart other mem)
  · rw [served, concluded]
    intro one mem o mem' _
    obtain rfl : one = a.answer := List.mem_singleton.mp mem
    obtain rfl : o = d.answer := List.mem_singleton.mp mem'
    rw [down]
    exact ⟨rfl, rfl, rfl⟩
  · intro d' mem
    rw [concluded] at mem
    obtain rfl := List.mem_singleton.mp mem
    exact ⟨a, by simp [served], by rw [down]; rfl⟩

def homeTag : Bytes := Bytes.ofText home.toText

theorem first_message_answered : ∃ w d,
    Reachable .standard (.peerNamed .routing) none List.reverse w ∧ w.drawn.Nodup ∧ w.Secure ∧
      d ∈ w.concluded ∧ d.message.plaintext = [1, 2] ∧ d.answer.plaintext = [2, 1] := by
  have spells : Spells .routing home greetingToken (.transport homeTag) := ⟨rfl, fun _ => rfl⟩
  have fair : ChannelId.decode .transport homeTag = .ok (.transport homeTag) := rfl
  obtain ⟨up, down, remote, _, paired⟩ := paired_of_handshake rfl spells fair
  obtain ⟨e, a, channel, w, way, plaintext⟩ :=
    paired.onItsWay spells fair [1, 2] (by decide)
  obtain ⟨after, opens⟩ := way.opens
  let request : Request := carrying .routing homeTag e.ciphertext
  let d : Concluded :=
    ⟨request, e, ⟨channel.pair.decrypter, [], a.answer.ciphertext, e.plaintext.reverse⟩⟩
  have ends := way.reached.step (
    .finish [(Frame.reply request.token .success a.answer.ciphertext).encode] none)
    (by simpa [Faithful] using way.reply)
  rw [step_finish way.call (by simp [way.channels]) opens, way.concluded] at ends
  have secure := secure_of_one (w := { w with
    toCaller := { w.toCaller with channels := w.channels.set 0 after }
    call := none
    concluded := [d] }) way.seals way.served rfl way.up (by simp) (by rw [way.down])
  have mem : d ∈ [d] := List.mem_singleton_self d
  obtain ⟨answered, -⟩ :=
    answered_by_handler Primitives.standard_sealing ends way.drawn secure
  have answer := (answered d mem).1 (by decide)
  exact ⟨_, d, ends, way.drawn, secure, mem, plaintext, by rw [answer, plaintext]; rfl⟩

/-- What was sealed of messages of different lengths differs. -/
theorem octets_ne_of_length {e other : Seal} (sealing : p.Sealing) (made : e.Made p)
    (made' : other.Made p) (length : other.plaintext.length ≠ e.plaintext.length) :
    other.octets ≠ e.octets := by
  intro same
  have lengths := congrArg List.length same
  rw [made.octets, made'.octets, sealing.length_encrypt, sealing.length_encrypt] at lengths
  exact length (Nat.add_right_cancel lengths)

/-- The call for the first message ends before the reply comes. The client sends another message,
and takes the reply for the answer to that one. -/
theorem OnItsWay.taken_late {tag : Bytes} {e : Seal} {a : Answering} {channel : ClientChannel}
    (way : OnItsWay .tokenReuse tag e a channel w) (long : tokenLength ≤ tag.length)
    {plaintext : Bytes} (short : ¬ CipherState.tooLong plaintext) :
    ∃ request e' w', e'.plaintext = plaintext ∧
      Reachable .standard (.peerNamed .tokenReuse) none List.reverse w' ∧ w'.drawn.Nodup ∧
      w'.requests.filterMap Asking.message = [e, e'] ∧ w'.served = [a] ∧
      w'.concluded =
        [⟨request, e',
          ⟨channel.pair.decrypter, [], a.answer.ciphertext, e.plaintext.reverse⟩⟩] := by
  have inside : w.channels[0]? = some channel := by simp [way.channels]
  have late := way.reached.step (.finish [] none) (by simp [Faithful])
  rw [step_timeout way.call inside] at late
  obtain ⟨ciphertext, next, sends⟩ :=
    ClientChannel.encrypt_isOk .standard [] way.unused short
  have asked := late.step (.ask (.send 0 plaintext) laterToken) trivial
  rw [step_ask (w := { w with call := none }) (Caller.ask_send inside sends _ _),
    Caller.sealing_send inside sends, way.client, way.name] at asked
  obtain ⟨_, opens⟩ := way.opens
  obtain ⟨after, opens⟩ := ClientChannel.decrypt_isOk_of_sent opens next
  let request := (greeted .tokenReuse).request (.transport tag) ciphertext laterToken .message
  -- Both requests have the token of the handshake.
  have token : (carrying .tokenReuse tag e.ciphertext).token = request.token := by
    simp [request, carrying, DatagramClient.request, DatagramClient.requestToken, greeted,
      DatagramClient.new, Config.peerNamed, Codec.encode, ChannelId.toBytes, long]
  have ends := asked.step
    (.finish [(Frame.reply request.token .success a.answer.ciphertext).encode] none)
    (by simpa [Faithful, await, ← token] using way.reply)
  rw [way.name] at opens
  rw [step_finish rfl (by simp [await, way.channels]) opens] at ends
  refine ⟨request, ⟨channel.pair.encrypter, [], plaintext, ciphertext⟩, _, rfl, ends, ?_, ?_,
    way.served, ?_⟩
  · simpa [await, Caller.draw, way.client, greeted, DatagramClient.new, Config.peerNamed]
      using way.drawn
  · simp [await, way.seals]
  · simp [await, way.concluded]

/-- Under token reuse, a reply that comes after its call has ended is taken for the answer to the
next message. -/
theorem late_reply_taken : ∃ w d,
    Reachable .standard (.peerNamed .tokenReuse) none List.reverse w ∧ w.drawn.Nodup ∧ w.Secure ∧
      d ∈ w.concluded ∧ d.message.plaintext = [6, 7] ∧ d.answer.plaintext = [5] := by
  have spells : Spells .tokenReuse home greetingToken (.transport (homeTag ++ greetingToken)) :=
    ⟨rfl, fun _ => rfl⟩
  have fair : ChannelId.decode .transport (homeTag ++ greetingToken) =
      .ok (.transport (homeTag ++ greetingToken)) := rfl
  obtain ⟨up, down, remote, _, paired⟩ := paired_of_handshake rfl spells fair
  obtain ⟨e, a, channel, _, way, plaintext⟩ :=
    paired.onItsWay spells fair [5] (by decide)
  obtain ⟨request, e', w, plaintext', reached, distinct, seals, served, concluded⟩ :=
    way.taken_late (by decide) (by decide : ¬ CipherState.tooLong [6, 7])
  have made : ∀ one ∈ [e, e'], one.Made .standard := by
    intro one mem
    rw [← seals] at mem
    obtain ⟨q, mem, message⟩ := List.mem_filterMap.mp mem
    exact ((reached.sound.requests q mem).message one message).made
  have apart : ∀ other ∈ [e'], other.octets ≠ e.octets := by
    intro other mem
    obtain rfl := List.mem_singleton.mp mem
    exact octets_ne_of_length Primitives.standard_sealing (made e (by simp))
      (made other (by simp)) (by simp [plaintext, plaintext'])
  refine ⟨w, _, reached, distinct, secure_of_one seals served concluded way.up apart ?_,
    by rw [concluded]; exact List.mem_singleton_self _, plaintext', ?_⟩
  · rw [way.down]
  · change e.plaintext.reverse = [5]
    rw [plaintext]
    rfl

end SecureChannel.Dialogue
