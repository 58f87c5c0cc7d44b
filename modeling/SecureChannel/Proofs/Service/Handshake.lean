import SecureChannel.Proofs.Noise.Outcome
import SecureChannel.Proofs.PendingHandshake.Agreement
import SecureChannel.Proofs.PendingHandshake.Naming
import SecureChannel.Proofs.Registry.Slots
import SecureChannel.Service

/-!
# An honest handshake under the transport scheme

Where the transport names the peers, a server has a response to every honest request, and settling
it registers the peer's name, if there is room. From the response the client gets the same two
directions, the other way round.
-/

namespace SecureChannel

open Registry PreparedResponse

variable {p : Primitives} {s : Service} {payload octets : Bytes}
variable {id : ChannelId} {e fresh : Bytes32}

/-- The response to an honest request, and what both ends make of it. -/
structure Service.Welcomes (p : Primitives) (s : Service) (serverKey : Option PublicKey)
    (payload octets : Bytes) (id : ChannelId) (e fresh : Bytes32) (request response : Bytes)
    (up down : Bytes32) : Prop where
  prepares : ∀ draws, s.prepareHandshake p (some octets) request draws fresh =
    (.ok ⟨response, .taken id, .new down up s.config.nonceMode, s.config.handshakeTimeout⟩, s)
  short : response.length ≤
    2 * Noise.Party.keyLength + (s.earlyReply payload).length + Noise.Party.tagLength
  joins : ∃ client, ClientHandshake.start p s.config serverKey payload e = .ok client ∧
    client.request = request ∧ ∃ remote, client.finish p (.reply response) (some octets) =
      .ok ⟨id, .new up down s.config.nonceMode, s.earlyReply payload, remote⟩

theorem Service.welcomes (sealing : p.Sealing) (key : Option Bytes32) (payload : Bytes)
    (scheme : s.config.idScheme = .transport)
    (made : s.key = key.map (StaticKey.ofPrivate p))
    (keyed : s.config.pattern.usesResponderStatic = true → key ≠ none)
    (agree : p.Agree e fresh) (agreeStatic : ∀ k, key = some k → p.Agree e k)
    (fits : FitsMessage payload) (fitsReply : FitsMessage (s.earlyReply payload))
    (named : ChannelId.decode .transport octets = .ok id) :
    ∃ request response up down, s.Welcomes p (key.map fun k => ⟨p.publicKey k⟩) payload octets id
      e fresh request response up down := by
  obtain ⟨client, pending, started, accepted, rfl, paired⟩ :=
    paired_of_fits sealing e keyed agreeStatic fits
  obtain ⟨response, finished, responded⟩ : ∃ message finished,
      pending.respond p fresh (s.earlyReply pending.payload) = .ok (message, finished) :=
    paired.respond_ok_iff.mpr fitsReply
  obtain ⟨up, down, remote, pair, read⟩ := paired.readResponse_of_respond sealing agree.symm
    (fun k known => (agreeStatic k known).symm) responded
  refine ⟨client.request, response, up, down, ?_, ?_, client, started, rfl,
    remote.map PublicKey.mk, ?_⟩
  · intro draws
    rw [← made] at accepted
    simp [Service.prepareHandshake, accepted, PendingHandshake.prepare, paired.serverConfig, scheme,
      PendingHandshake.prepareTransport, PendingHandshake.peerId, named, responded, pair]
  · rw [PendingHandshake.respond] at responded
    split at responded
    · next written =>
      cases responded
      exact Noise.Responder.length_writeResponse_le sealing written
    · cases responded
  · simp [ClientHandshake.finish, ClientHandshake.response, bind, Except.bind, read,
      ClientHandshake.name, paired.clientConfig, scheme, named, pure, Except.pure]

/-- Under the default pattern nothing stands in the way of a handshake with an empty payload. -/
theorem Service.welcomes_standard (scheme : s.config.idScheme = .transport)
    (pattern : s.config.pattern = .nn) (unkeyed : s.key = none)
    (named : ChannelId.decode .transport octets = .ok id) :
    ∃ request response up down, s.Welcomes .standard none [] octets id (.ofNatLE 7) (.ofNatLE 9)
      request response up down :=
  Service.welcomes Primitives.standard_sealing none [] scheme unkeyed
    (by simp [pattern, Noise.Pattern.usesResponderStatic]) Primitives.agree_standard.1 (by simp)
    (by decide) (by decide : FitsMessage []) named

/-- Settling a response that has left registers its name, if there is room. -/
theorem Service.settleHandshake_delivered (now : Nat) (response : PreparedResponse)
    (room : s.registry.slots[response.naming.id]? = none → s.registry.isFull = false) :
    s.settleHandshake now response .delivered =
      (.ok ⟨s.registry.channels.size⟩, { s with registry :=
        (s.registry.setLive response.naming.id response.pair now).2 }) := by
  simp only [settleHandshake, settle, establish]
  cases naming : response.naming with
  | held res => rfl
  | taken id =>
    rw [naming, Naming.id] at room
    have free : (!s.registry.slots.contains id && s.registry.isFull) = false := by
      cases contained : s.registry.slots.contains id with
      | true => rfl
      | false => simpa using room (contains_eq_false_iff.mp contained)
    simp [rekey, free, setLive, Naming.id]

/-! ### A server of peers -/

/-- A configuration under which the transport names the peers. -/
def Config.peerNamed (codec : Codec) : Config :=
  { Config.default with idScheme := .transport, codec := codec }

/-- A server that reverses what it is sent, and has just started. -/
def Service.reverser (codec : Codec) : Service :=
  ⟨.peerNamed codec, none, .new (Config.peerNamed codec).limits, List.reverse⟩

theorem Service.new_peerNamed {codec : Codec} (carriesTag : codec.requiresTransportId = true) :
    Service.new (.peerNamed codec) none List.reverse = .ok (reverser codec) := by
  cases codec with
  | envelope => exact absurd carriesTag (by decide)
  | tokenReuse | query | routing => rfl

end SecureChannel
