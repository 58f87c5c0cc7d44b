import SecureChannel.Datagram.Client
import SecureChannel.Proofs.ClientChannel.Directions
import SecureChannel.Proofs.Codec.RoundTrip
import SecureChannel.Proofs.Datagram.Serving
import SecureChannel.Proofs.Service.World

/-!
# What a client asks, and what it is told

The name of a channel does not stand in a message where the transport knows it. The client has put
it together from its own endpoint and the token of a handshake, and the server puts it together from
the endpoint that it sees and the token of the frame. `Spells` says that a name was made in this
way, and `inbound_request` that the server makes the same name out of every later request on the
channel, if it sees the client at the endpoint that the client has: under token reuse the client
cuts the token of the handshake off the end of the name again.

What the server answers in one reply, the client understands as it was meant.
-/

namespace SecureChannel

open DatagramServer

/-- A channel has the name that the transport gives to the peer, where the transport names channels.
-/
structure Spells (codec : Codec) (peer : Endpoint) (token : Bytes) (id : ChannelId) : Prop where
  sized : token.length = tokenLength
  tag : codec.requiresTransportId = true → transportTag codec (some token) peer = some id.toBytes

namespace DatagramClient

variable {c : DatagramClient} {id : ChannelId} {token fresh ciphertext : Bytes}
variable {kind : Option Bytes → Option String → Bytes → Frame}

theorem requestToken_of_ne (other : c.codec ≠ .tokenReuse) (tag : Option Bytes) (fresh : Bytes) :
    c.requestToken tag fresh = fresh := by
  cases codec : c.codec with
  | tokenReuse => exact absurd codec other
  | query | envelope | routing => simp only [requestToken, codec]

/-- Tokens that were cut off names are as long as those that were drawn. -/
theorem length_requestToken (c : DatagramClient) (tag : Option Bytes)
    (length : fresh.length = tokenLength) : (c.requestToken tag fresh).length = tokenLength := by
  unfold requestToken
  split
  · next octets _ =>
    split
    · rw [List.length_drop]
      omega
    · exact length
  · exact length

/-- The token of the handshake is found again at the end of the name. -/
theorem requestToken_of_spells (reuse : c.codec = .tokenReuse)
    (spells : Spells c.codec c.endpoint token id) (fresh : Bytes) :
    c.requestToken (some id.toBytes) fresh = token := by
  obtain ⟨sized, tag⟩ := spells
  rw [reuse] at tag
  have name : Bytes.ofText c.endpoint.toText ++ token = id.toBytes := Option.some.inj (tag rfl)
  simp only [requestToken, reuse, ← name, List.length_append, sized]
  rw [if_pos (Nat.le_add_left ..), Nat.add_sub_cancel, List.drop_left]

/-- At the server a request on a channel comes in as the client has made it, if the server sees the
client at the endpoint that the client has. -/
theorem inbound_request {peer : Endpoint} (spells : Spells c.codec c.endpoint token id)
    (seen : c.codec.requiresTransportId = true → peer = c.endpoint) (ciphertext fresh : Bytes)
    (kind : Option Bytes → Option String → Bytes → Frame) :
    inbound c.codec peer (c.request id ciphertext fresh kind).token
      (c.codec.encode id ciphertext).query (c.codec.encode id ciphertext).body =
        c.codec.encode id ciphertext := by
  have tag := spells.tag
  have again := fun reuse => requestToken_of_spells reuse spells fresh
  simp only [inbound, request]
  cases codec : c.codec with
  | envelope => rfl
  | tokenReuse =>
    rw [codec] at tag seen
    simp only [Codec.encode, again codec, seen rfl, tag rfl]
  | query | routing =>
    rw [codec] at tag seen
    simp only [Codec.encode, transportTag, seen rfl] at tag ⊢
    rw [tag rfl]

/-- A request that carries a short message fits a datagram. -/
theorem fits_request (admissible : id.Admissible) (carries : Frame.Carries kind)
    (sized : fresh.length = tokenLength) (short : ciphertext.length ≤ maxCarried) :
    (c.request id ciphertext fresh kind).frame.fits = true := by
  have length := length_requestToken c (c.codec.encode id ciphertext).tag sized
  refine c.codec.fits_of_le carries admissible.length_toBytes_le ?_ short
  rw [length, tokenLength]
  decide

/-- So does the reply, if it carries a short answer or none. -/
theorem fits_replyTo_request (c : DatagramClient) (id : ChannelId) (ciphertext : Bytes)
    (kind : Option Bytes → Option String → Bytes → Frame) (sized : fresh.length = tokenLength)
    {answer : Except ChannelError Bytes} (short : ∀ body, answer = .ok body → body.length ≤ 40000) :
    (replyTo (c.request id ciphertext fresh kind).token answer).fits = true := by
  have length := length_requestToken c (c.codec.encode id ciphertext).tag sized
  refine fits_replyTo ?_ short
  rw [length, tokenLength]
  decide

/-! ### Answers -/

theorem successBody_replyTo (c : DatagramClient) (token : Option Bytes)
    (answer : Except ChannelError Bytes) :
    c.successBody (.frame (replyTo token answer)) =
      answer.mapError fun e => .rejected e.outcome := by
  cases answer with
  | ok body => rfl
  | error e =>
    have failure : e.outcome.isSuccess = false := by
      simpa [Outcome.isSuccess] using e.outcome_ne_success
    simp only [replyTo, successBody, received, failure, bind, Except.bind, Bool.false_eq_true,
      if_false]
    rfl

theorem messageAnswer_replyTo (p : Primitives) (c : DatagramClient) (channel : ClientChannel)
    (token : Option Bytes) (answer : Except ChannelError Bytes) :
    c.messageAnswer p channel (.frame (replyTo token answer)) =
      match answer with
      | .ok body => channel.decrypt p [] body
      | .error e => .error (.transport (.rejected e.outcome)) := by
  rw [messageAnswer, successBody_replyTo]
  cases answer <;> rfl

theorem id_of_messageAnswer {p : Primitives} {channel after : ClientChannel} {arrival : Arrival}
    {plaintext : Bytes} (opened : c.messageAnswer p channel arrival = .ok (plaintext, after)) :
    after.id = channel.id := by
  rw [messageAnswer] at opened
  split at opened
  · cases opened
  · exact ClientChannel.id_of_decrypt opened

theorem closeAnswer_replyTo (c : DatagramClient) (token : Option Bytes)
    (answer : Except ChannelError Bytes) :
    c.closeAnswer (.frame (replyTo token answer)) =
      match answer with
      | .ok _ => .ok ()
      | .error e => .error (.transport (.rejected e.outcome)) := by
  rw [closeAnswer, successBody_replyTo]
  cases answer <;> rfl

theorem exchange_replyTo (c : DatagramClient) (timeout : Nat) (token : Option Bytes)
    (answer : Except ChannelError Bytes) :
    c.exchange timeout (.frame (replyTo token answer)) = World.exchange answer := by
  simp only [exchange, successBody_replyTo]
  cases answer <;> rfl

end DatagramClient

theorem Request.awaitAnswer_replyTo (request : Request) (answer : Except ChannelError Bytes)
    (rest : List Bytes) :
    request.awaitAnswer ((replyTo request.token answer).encode :: rest) =
      (some (replyTo request.token answer), rest) := by
  have token : (replyTo request.token answer).token? = request.token := by
    cases answer <;> rfl
  simp [awaitAnswer, accepts, Frame.decode_encode, token]

end SecureChannel
