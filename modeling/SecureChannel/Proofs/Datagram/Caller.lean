import SecureChannel.Datagram.Client
import SecureChannel.Proofs.CipherState.Records
import SecureChannel.Proofs.ClientChannel.Directions

/-!
# A client of datagrams and its channels

A `Caller` is a client of datagrams with the channels that it has not closed. It is called with a
`Wish`. `ask` is the part of a call until the request is sent, and `finish` is what the client does
with whatever has come in. In between anything may happen, so everything that is said about a client
on a network is said about these two.
-/

namespace SecureChannel

/-- A client with its open channels, and the tokens that it has drawn. -/
structure Caller where
  client : DatagramClient
  channels : List ClientChannel
  drawn : List Bytes

/-- What a client brings to a handshake. -/
structure Hello where
  serverKey : Option PublicKey
  payload : Bytes
  ephemeral : Bytes32

def Hello.start (p : Primitives) (config : Config) (hello : Hello) :
    Except ChannelError ClientHandshake :=
  ClientHandshake.start p config hello.serverKey hello.payload hello.ephemeral

/-- A client that knows nothing of the server, and has nothing to say. -/
def Hello.plain : Hello := ⟨none, [], .ofNatLE 7⟩

/-- What a client is called for. Channels are given by their places. -/
inductive Wish
  | fetchKey
  | connect (hello : Hello)
  | send (index : Nat) (plaintext : Bytes)
  | close (index : Nat)

/-- What a call needs to make sense of its answer. -/
inductive Purpose
  | key
  | handshake (handshake : ClientHandshake)
  | message (index : Nat)
  | close

structure Call where
  request : Request
  purpose : Purpose

inductive Returned
  | key (publicKey : PublicKey)
  | channel (channel : ClientChannel)
  | answer (plaintext : Bytes)
  | closed

namespace ClientChannel

variable {p : Primitives} {mode : NonceMode} {channel after : ClientChannel}
variable {ad plaintext ciphertext : Bytes}

theorem inMode_encrypt (sent : channel.encrypt p ad plaintext = .ok (ciphertext, after))
    (inMode : channel.pair.InMode mode) : after.pair.InMode mode := by
  obtain ⟨sealed, decrypter⟩ := encrypt_ok sent
  exact ⟨(CipherState.sealed_of_encrypt sealed).advances.mode.trans inMode.encrypter,
    by rw [decrypter, inMode.decrypter]⟩

theorem inMode_decrypt (opened : channel.decrypt p ad ciphertext = .ok (plaintext, after))
    (inMode : channel.pair.InMode mode) : after.pair.InMode mode := by
  obtain ⟨found, encrypter⟩ := decrypt_ok opened
  exact ⟨by rw [encrypter, inMode.encrypter],
    (CipherState.opened_of_decrypt found).advances.mode.trans inMode.decrypter⟩

end ClientChannel

namespace Caller

def hail (c : Caller) (token : Bytes) : Caller :=
  ⟨{ c.client with token := some token }, c.channels, c.drawn ++ [token]⟩

/-- The tokens that are drawn for a request on a channel. Token reuse needs none. -/
def draw (c : Caller) (token : Bytes) : List Bytes :=
  if c.client.codec = .tokenReuse then [] else [token]

/-- Starts a call, up to its request. A channel that is to be closed is given up in any case. -/
def ask (p : Primitives) (config : Config) (c : Caller) (token : Bytes) :
    Wish → Except ChannelError Call × Caller
  | .fetchKey => (.ok ⟨DatagramClient.keyRequest, .key⟩, c)
  | .connect hello =>
      match hello.start p config with
      | .error e => (.error e, c)
      | .ok handshake =>
          (.ok ⟨(c.client.handshakeRequest handshake.request token).1, .handshake handshake⟩,
            c.hail token)
  | .send index plaintext =>
      match c.channels[index]? with
      | none => (.error (.internal "no such channel"), c)
      | some channel =>
          match c.client.messageRequest p channel plaintext token with
          | .error e => (.error e, c)
          | .ok (request, channel) =>
              (.ok ⟨request, .message index⟩,
                ⟨c.client, c.channels.set index channel, c.drawn ++ c.draw token⟩)
  | .close index =>
      match c.channels[index]? with
      | none => (.error (.internal "no such channel"), c)
      | some channel =>
          match c.client.closeRequest p channel token with
          | .error e => (.error e, { c with channels := c.channels.eraseIdx index })
          | .ok (request, _) =>
              (.ok ⟨request, .close⟩,
                ⟨c.client, c.channels.eraseIdx index, c.drawn ++ c.draw token⟩)

def finish (p : Primitives) (c : Caller) (purpose : Purpose) (arrival : Arrival) :
    Except ChannelError Returned × Caller :=
  match purpose with
  | .key => ((c.client.keyOf arrival).map .key, c)
  | .handshake handshake =>
      match handshake.finish p (c.client.exchange handshake.config.handshakeTimeout arrival)
        c.client.channelTag with
      | .error e => (.error e, c)
      | .ok channel => (.ok (.channel channel), { c with channels := c.channels ++ [channel] })
  | .message index =>
      match c.channels[index]? with
      | none => (.error (.internal "no such channel"), c)
      | some channel =>
          match c.client.messageAnswer p channel arrival with
          | .error e => (.error e, c)
          | .ok (plaintext, channel) =>
              (.ok (.answer plaintext), { c with channels := c.channels.set index channel })
  | .close => ((c.client.closeAnswer arrival).map fun _ => .closed, c)

variable {p : Primitives} {config : Config} {c c' : Caller} {token ciphertext plaintext : Bytes}
variable {index : Nat} {channel after : ClientChannel} {wish : Wish} {call : Call}
variable {arrival : Arrival} {mode : NonceMode}

/-! ### Requests -/

theorem ask_connect {hello : Hello} {handshake : ClientHandshake}
    (started : hello.start p config = .ok handshake) (c : Caller) (token : Bytes) :
    c.ask p config token (.connect hello) =
      (.ok ⟨⟨.handshake (some token) handshake.request, some token⟩, .handshake handshake⟩,
        c.hail token) := by
  simp only [ask, started, DatagramClient.handshakeRequest]

theorem ask_send (inside : c.channels[index]? = some channel)
    (sent : channel.encrypt p [] plaintext = .ok (ciphertext, after)) (config : Config)
    (token : Bytes) :
    c.ask p config token (.send index plaintext) =
      (.ok ⟨c.client.request channel.id ciphertext token .message, .message index⟩,
        ⟨c.client, c.channels.set index after, c.drawn ++ c.draw token⟩) := by
  simp only [ask, inside, DatagramClient.messageRequest, sent, bind, Except.bind, pure, Except.pure,
    ClientChannel.id_of_encrypt sent]

theorem ask_close (inside : c.channels[index]? = some channel)
    (sent : channel.encryptClose p = .ok (ciphertext, after)) (config : Config) (token : Bytes) :
    c.ask p config token (.close index) =
      (.ok ⟨c.client.request channel.id ciphertext token .close, .close⟩,
        ⟨c.client, c.channels.eraseIdx index, c.drawn ++ c.draw token⟩) := by
  have named : after.id = channel.id := ClientChannel.id_of_encrypt sent
  simp only [ask, inside, DatagramClient.closeRequest, sent, bind, Except.bind, pure, Except.pure,
    named]

/-- What a call has asked for, and what has become of the client. -/
inductive Asks (p : Primitives) (config : Config) (c : Caller) (token : Bytes) :
    Wish → Call → Caller → Prop
  | fetchKey : Asks p config c token .fetchKey ⟨DatagramClient.keyRequest, .key⟩ c
  | connect {hello : Hello} {handshake : ClientHandshake}
      (started : hello.start p config = .ok handshake) :
      Asks p config c token (.connect hello)
        ⟨⟨.handshake (some token) handshake.request, some token⟩, .handshake handshake⟩
        (c.hail token)
  | send {index : Nat} {plaintext ciphertext : Bytes} {channel after : ClientChannel}
      (inside : c.channels[index]? = some channel)
      (sent : channel.encrypt p [] plaintext = .ok (ciphertext, after)) :
      Asks p config c token (.send index plaintext)
        ⟨c.client.request channel.id ciphertext token .message, .message index⟩
        ⟨c.client, c.channels.set index after, c.drawn ++ c.draw token⟩
  | close {index : Nat} {ciphertext : Bytes} {channel after : ClientChannel}
      (inside : c.channels[index]? = some channel)
      (sent : channel.encryptClose p = .ok (ciphertext, after)) :
      Asks p config c token (.close index)
        ⟨c.client.request channel.id ciphertext token .close, .close⟩
        ⟨c.client, c.channels.eraseIdx index, c.drawn ++ c.draw token⟩

/-- A call asks for what it should, or fails at once. Then at most the channel that was to be closed
is gone. -/
theorem ask_cases (p : Primitives) (config : Config) (c : Caller) (token : Bytes) (wish : Wish) :
    (∃ call c', c.ask p config token wish = (.ok call, c') ∧
      c.Asks p config token wish call c') ∨
    (∃ e channels, c.ask p config token wish = (.error e, { c with channels := channels }) ∧
      channels.Sublist c.channels) := by
  cases wish with
  | fetchKey => exact .inl ⟨_, _, rfl, .fetchKey⟩
  | connect hello =>
    cases started : hello.start p config with
    | error e => exact .inr ⟨e, c.channels, by simp only [ask, started], .refl _⟩
    | ok handshake => exact .inl ⟨_, _, ask_connect started c token, .connect started⟩
  | send index plaintext =>
    cases inside : c.channels[index]? with
    | none =>
      refine .inr ⟨.internal "no such channel", c.channels, ?_, .refl _⟩
      simp only [ask, inside]
    | some channel =>
      cases sent : channel.encrypt p [] plaintext with
      | error e =>
        refine .inr ⟨e, c.channels, ?_, .refl _⟩
        simp only [ask, inside, DatagramClient.messageRequest, sent, bind, Except.bind]
      | ok sealed => exact .inl ⟨_, _, ask_send inside sent config token, .send inside sent⟩
  | close index =>
    cases inside : c.channels[index]? with
    | none =>
      refine .inr ⟨.internal "no such channel", c.channels, ?_, .refl _⟩
      simp only [ask, inside]
    | some channel =>
      cases sent : channel.encryptClose p with
      | error e =>
        refine .inr ⟨e, c.channels.eraseIdx index, ?_, List.eraseIdx_sublist ..⟩
        simp only [ask, inside, DatagramClient.closeRequest, sent, bind, Except.bind]
      | ok sealed => exact .inl ⟨_, _, ask_close inside sent config token, .close inside sent⟩

/-- Every request carries the token that its answer has to have. -/
theorem Asks.token_eq (asks : c.Asks p config token wish call c') :
    call.request.frame.token? = call.request.token := by
  cases asks <;> rfl

theorem Asks.client_eq (asks : c.Asks p config token wish call c') :
    c'.client.endpoint = c.client.endpoint ∧ c'.client.codec = c.client.codec := by
  cases asks <;> exact ⟨rfl, rfl⟩

/-! ### Answers -/

/-- What a call has returned, and what has become of the client. -/
inductive Returns (p : Primitives) (c : Caller) (arrival : Arrival) :
    Purpose → Returned → Caller → Prop
  | key {publicKey : PublicKey} (told : c.client.keyOf arrival = .ok publicKey) :
      Returns p c arrival .key (.key publicKey) c
  | handshake {handshake : ClientHandshake} {channel : ClientChannel}
      (finished : handshake.finish p
        (c.client.exchange handshake.config.handshakeTimeout arrival) c.client.channelTag =
          .ok channel) :
      Returns p c arrival (.handshake handshake) (.channel channel)
        { c with channels := c.channels ++ [channel] }
  | message {index : Nat} {plaintext : Bytes} {channel after : ClientChannel}
      (inside : c.channels[index]? = some channel)
      (opened : c.client.messageAnswer p channel arrival = .ok (plaintext, after)) :
      Returns p c arrival (.message index) (.answer plaintext)
        { c with channels := c.channels.set index after }
  | close (closed : c.client.closeAnswer arrival = .ok ()) :
      Returns p c arrival .close .closed c

/-- A call that fails leaves the client as it was. -/
theorem finish_cases (p : Primitives) (c : Caller) (purpose : Purpose) (arrival : Arrival) :
    (∃ returned c', c.finish p purpose arrival = (.ok returned, c') ∧
      c.Returns p arrival purpose returned c') ∨
    (∃ e, c.finish p purpose arrival = (.error e, c)) := by
  cases purpose with
  | key =>
    cases told : c.client.keyOf arrival with
    | error e => exact .inr ⟨e, by simp only [finish, told, Except.map]⟩
    | ok publicKey => exact .inl ⟨_, _, by simp only [finish, told, Except.map], .key told⟩
  | handshake handshake =>
    cases finished : handshake.finish p
      (c.client.exchange handshake.config.handshakeTimeout arrival) c.client.channelTag with
    | error e => exact .inr ⟨e, by simp only [finish, finished]⟩
    | ok channel => exact .inl ⟨_, _, by simp only [finish, finished], .handshake finished⟩
  | message index =>
    cases inside : c.channels[index]? with
    | none => exact .inr ⟨.internal "no such channel", by simp only [finish, inside]⟩
    | some channel =>
      cases opened : c.client.messageAnswer p channel arrival with
      | error e => exact .inr ⟨e, by simp only [finish, inside, opened]⟩
      | ok answer =>
        exact .inl ⟨_, _, by simp only [finish, inside, opened], .message inside opened⟩
  | close =>
    cases closed : c.client.closeAnswer arrival with
    | error e => exact .inr ⟨e, by simp only [finish, closed, Except.map]⟩
    | ok _ => exact .inl ⟨_, _, by simp only [finish, closed, Except.map], .close closed⟩

/-- Ending a call changes at most the channels. -/
theorem Returns.kept {purpose : Purpose} {returned : Returned}
    (returns : c.Returns p arrival purpose returned c') :
    c'.client = c.client ∧ c'.drawn = c.drawn := by
  cases returns <;> exact ⟨rfl, rfl⟩

/-! ### The way of numbering -/

def InMode (mode : NonceMode) (c : Caller) : Prop :=
  ∀ channel ∈ c.channels, channel.pair.InMode mode

theorem InMode.set (inMode : c.InMode mode) (index : Nat) (other : after.pair.InMode mode) :
    ∀ channel ∈ c.channels.set index after, channel.pair.InMode mode := by
  intro channel mem
  rcases List.mem_or_eq_of_mem_set mem with old | rfl
  · exact inMode channel old
  · exact other

theorem InMode.asks (inMode : c.InMode mode) (asks : c.Asks p config token wish call c') :
    c'.InMode mode := by
  cases asks with
  | fetchKey | connect => exact inMode
  | send inside sent =>
    exact inMode.set _ (ClientChannel.inMode_encrypt sent (inMode _ (List.mem_of_getElem? inside)))
  | close => exact fun channel mem => inMode channel (List.mem_of_mem_eraseIdx mem)

theorem Asks.mode_eq {handshake : ClientHandshake} (asks : c.Asks p config token wish call c')
    (purpose : call.purpose = .handshake handshake) :
    handshake.initiator.mode = config.nonceMode := by
  cases asks with
  | connect started =>
    cases purpose
    exact ClientHandshake.start_ok started
  | fetchKey | send | close => cases purpose

theorem InMode.returns {purpose : Purpose} {returned : Returned} (inMode : c.InMode mode)
    (returns : c.Returns p arrival purpose returned c')
    (same : ∀ handshake, purpose = .handshake handshake → handshake.initiator.mode = mode) :
    c'.InMode mode := by
  cases returns with
  | key | close => exact inMode
  | @handshake handshake channel finished =>
    obtain ⟨send, receive, pair⟩ := ClientHandshake.finish_ok finished
    intro one mem
    rcases List.mem_append.mp mem with old | new
    · exact inMode one old
    · rw [List.mem_singleton.mp new, pair, same handshake rfl]
      exact CipherPair.inMode_new send receive _
  | @message index plaintext channel after inside opened =>
    rw [DatagramClient.messageAnswer] at opened
    split at opened
    · cases opened
    · exact inMode.set _
        (ClientChannel.inMode_decrypt opened (inMode channel (List.mem_of_getElem? inside)))

end Caller

end SecureChannel
