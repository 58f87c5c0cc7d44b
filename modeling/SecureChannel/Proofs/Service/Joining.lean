import SecureChannel.Proofs.Noise.Outcome
import SecureChannel.Proofs.PendingHandshake.Completion
import SecureChannel.Proofs.Service.Links

/-!
# An honest client joins

A handshake of an honest client ends in one of two ways: the server refuses and nothing has changed,
or there is a channel of which both ends are linked. `Joins` describes the second. Which of the two
it is depends on the server alone: the client makes sense of every response that it gets.
-/

namespace SecureChannel

open Registry PreparedResponse

variable {p : Primitives} {r s : Registry} {h : PendingHandshake} {tag : Option Bytes}
variable {response : PreparedResponse} {now : Nat}

/-- What comes of a delivered response: its channel is live under a name that was free, or under the
name of the peer. It is refused only if the registry is full. -/
theorem PreparedResponse.Ready.settle_delivered (ready : response.Ready h r tag s) (now : Nat) :
    (∃ handle, (response.settle s now .delivered).1 = .ok handle ∧
      r.Opens response.naming.id response.pair now (response.settle s now .delivered).2 ∧
      (r.slots[response.naming.id]? = none → r.isFull = false) ∧
      (r.slots[response.naming.id]? = none ∨ (h.config.idScheme = .transport ∧
        PendingHandshake.peerId tag = .ok response.naming.id))) ∨
    (r.isFull = true ∧ ∃ e, (response.settle s now .delivered).1 = .error e) := by
  cases ready with
  | held res naming granted =>
    refine .inl ?_
    simp only [settle, establish, naming, Naming.id]
    exact ⟨_, rfl, granted.opens response.pair now, fun _ => granted.room, .inl granted.free⟩
  | taken id naming scheme named same =>
    subst same
    simp only [settle, establish, naming, Naming.id, rekey]
    split
    · next refused =>
      rw [Bool.and_eq_true] at refused
      exact .inr ⟨refused.2, _, rfl⟩
    · next taken =>
      refine .inl ⟨_, rfl, opens_setLive s id response.pair now, ?_, .inr ⟨scheme, named⟩⟩
      intro free
      simpa [contains_eq_false_iff.mpr free] using taken

namespace World

variable {w : World} {v : Visit}

/-- The transcript digest that a handshake ends with. -/
def digest? (p : Primitives) (w : World) (v : Visit) : Option Bytes32 :=
  match ClientHandshake.start p w.service.config w.service.publicKey v.payload v.ephemeral with
  | .error _ => none
  | .ok handshake =>
      match PendingHandshake.accept p w.service.config w.service.key handshake.request with
      | .error _ => none
      | .ok pending =>
          match pending.respond p v.fresh (w.service.earlyReply pending.payload) with
          | .error _ => none
          | .ok (_, finished) => some finished.hash

/-- There is a name for the client: a draw hits one that nobody has, or no other handshake has the
same digest, or the transport gives the client a tag. -/
def HasName (p : Primitives) (w : World) (v : Visit) : Prop :=
  match w.service.config.idScheme with
  | .random16 | .random32 => ∃ i < maxDraws, ∃ id,
      ChannelId.ofDraw w.service.config.idScheme (v.draws i) = .ok id ∧
        ∀ client ∈ w.clients, client.id ≠ id
  | .binding => ∀ digest, w.digest? p v = some digest →
      ∀ client ∈ w.clients, client.id ≠ .binding digest
  | .transport => ∃ octets, v.tag = some octets ∧
      1 ≤ octets.length ∧ octets.length ≤ ChannelId.maxTransportLength

/-- The server can take the client in: there is room for it, a name, and a response that is long
enough for the reply. -/
structure Admits (p : Primitives) (w : World) (v : Visit) : Prop where
  room : w.service.registry.isFull = false
  fits : FitsResponse w.service.config.idScheme (w.service.earlyReply v.payload)
  named : w.HasName p v

structure Joins (p : Primitives) (w : World) (v : Visit) (client : ClientChannel) : Prop where
  answer : (w.connect p v).1 = .ok client
  clients : (w.connect p v).2.clients = w.clients ++ [client]
  reply : client.reply = w.service.earlyReply v.payload
  admissible : client.id.Admissible
  scheme : client.id.scheme = w.service.config.idScheme
  free : w.service.registry.slots[client.id]? = none
  opens : ∃ up down, client.pair = .new up down w.service.config.nonceMode ∧
    w.service.registry.Opens client.id (.new down up w.service.config.nonceMode) v.now
      (w.connect p v).2.service.registry

/-- What the registry asks of a handshake is what the other clients leave of it. -/
theorem nameFree_iff_hasName (sound : Sound w) (config : h.config = w.service.config)
    (digest : ∀ digest, w.digest? p v = some digest ↔ ∃ message finished,
      h.respond p v.fresh (w.service.earlyReply v.payload) = .ok (message, finished) ∧
        finished.hash = digest) :
    h.NameFree p w.service.registry v.tag (w.service.earlyReply v.payload) v.draws v.fresh ↔
      w.HasName p v := by
  rw [HasName, PendingHandshake.NameFree]
  rw [config]
  cases scheme : w.service.config.idScheme with
  | random16 | random32 => simp only [sound.free_iff]
  | binding =>
    simp only [sound.free_iff]
    constructor
    · intro free d known
      obtain ⟨message, finished, responded, rfl⟩ := (digest d).mp known
      exact free message finished responded
    · intro free message finished responded
      exact free finished.hash ((digest _).mpr ⟨message, finished, responded, rfl⟩)
  | transport =>
    simp only [PendingHandshake.peerId_ok_iff, ChannelId.decode_transport_iff]
    constructor
    · rintro ⟨_, octets, tag, -, length⟩
      exact ⟨octets, tag, length⟩
    · rintro ⟨octets, tag, length⟩
      exact ⟨_, octets, tag, rfl, length⟩

/-- A request that was read is refused without a trace, or answered with a response that names the
channel. With room in the registry, a response that could be prepared is not refused. -/
theorem handshakeReply_cases {service : Service} {request : Bytes} (now : Nat) (tag : Option Bytes)
    (draws : Nat → Nat) (fresh : Bytes32)
    (accepted : PendingHandshake.accept p service.config service.key request = .ok h)
    (config : h.config = service.config) :
    (∃ e s, service.handshakeReply p now tag request draws fresh =
        (.error e, { service with registry := s }) ∧ SameTable service.registry s ∧
        (service.registry.isFull = true ∨ ∃ e s, h.prepare p service.registry tag
          (service.earlyReply h.payload) draws fresh = (.error e, s))) ∨
    (∃ (response : PreparedResponse) (s : Registry),
      service.handshakeReply p now tag request draws fresh =
        (.ok response.message, { service with registry := s }) ∧
      response.Says p h tag (service.earlyReply h.payload) fresh ∧
      h.NameFree p service.registry tag (service.earlyReply h.payload) draws fresh ∧
      service.registry.Opens response.naming.id response.pair now s ∧
      (service.registry.slots[response.naming.id]? = none → service.registry.isFull = false) ∧
      (service.registry.slots[response.naming.id]? = none ∨ (service.config.idScheme = .transport ∧
        PendingHandshake.peerId tag = .ok response.naming.id))) := by
  simp only [Service.handshakeReply, Service.handleHandshake, accepted, PendingHandshake.complete]
  rcases prepared : h.prepare p service.registry tag (service.earlyReply h.payload) draws fresh
    with ⟨e | response, s⟩
  · exact .inl ⟨e, s, rfl, PendingHandshake.prepare_error prepared, .inr ⟨e, s, rfl⟩⟩
  · have prepares := PendingHandshake.prepare_ok prepared
    have ready := prepares.ready
    simp only [deliver]
    rcases ready.settle_delivered now with ⟨handle, answer, opens, room, free⟩ | ⟨full, e, answer⟩
    · rw [config] at free
      refine .inr ⟨response, (response.settle s now .delivered).2, ?_, prepares.informs,
        prepares.nameFree, opens, room, free⟩
      simp only [answer]
    · refine .inl ⟨e, (response.settle s now .delivered).2, ?_, ready.sameTable_of_error answer,
        .inl full⟩
      simp only [answer]

/-- A client whose request was refused has no channel. -/
theorem finish_exchange_error (p : Primitives) (handshake : ClientHandshake) (e : ChannelError)
    (tag : Option Bytes) : ∃ e', handshake.finish p (exchange (.error e)) tag = .error e' := by
  simp only [exchange]
  cases e.outcome <;> exact ⟨_, rfl⟩

/-- A response that was written has room for the reply. -/
theorem fitsResponse_of_says {config : Config} {key : Option Bytes32} {e fresh : Bytes32}
    {client : ClientHandshake} {reply : Bytes} (paired : Paired p config key e client h)
    (told : response.Says p h tag reply fresh) : FitsResponse h.config.idScheme reply := by
  obtain ⟨payload, finished, responded, -, named⟩ := told.read
  have same := paired.clientConfig.trans paired.serverConfig.symm
  have fits := paired.respond_ok_iff.mp ⟨_, _, responded⟩
  have length := ClientHandshake.length_of_name (named client same finished.pair none)
  rw [same] at length
  rwa [FitsMessage, length] at fits

theorem length_of_says (sealing : p.Sealing) {config : Config} {key : Option Bytes32}
    {e fresh : Bytes32} {client : ClientHandshake} {reply : Bytes}
    (paired : Paired p config key e client h) (told : response.Says p h tag reply fresh) :
    response.message.length ≤
      2 * Noise.Party.keyLength + (4 + reply.length) + Noise.Party.tagLength := by
  obtain ⟨payload, finished, responded, -, named⟩ := told.read
  have length := ClientHandshake.length_of_name
    (named client (paired.clientConfig.trans paired.serverConfig.symm) finished.pair none)
  have assigned := assignedLength_le client.config.idScheme
  rw [PendingHandshake.respond] at responded
  split at responded
  · next written =>
    cases responded
    have short := Noise.Responder.length_writeResponse_le sealing written
    omega
  · cases responded

/-- A client makes sense of every response that it gets. -/
theorem finish_exchange_ok (sealing : p.Sealing) {config : Config} {key : Option Bytes32}
    {e fresh : Bytes32} {client : ClientHandshake} {reply : Bytes}
    (paired : Paired p config key e client h) (agreeFresh : p.Agree fresh e)
    (agreeStatic : ∀ k, key = some k → p.Agree k e) (told : response.Says p h tag reply fresh) :
    ∃ joined : ClientChannel,
      client.finish p (exchange (.ok response.message)) tag = .ok joined ∧
      joined.id = response.naming.id ∧ joined.reply = reply ∧
      ∃ up down, joined.pair = .new up down config.nonceMode ∧
        response.pair = .new down up config.nonceMode := by
  obtain ⟨payload, finished, responded, pair, named⟩ := told.read
  obtain ⟨up, down, remote, mine, read⟩ :=
    paired.readResponse_of_respond sealing agreeFresh agreeStatic responded
  have name := named client (paired.clientConfig.trans paired.serverConfig.symm)
    (.new up down config.nonceMode) remote
  refine ⟨⟨response.naming.id, .new up down config.nonceMode, reply, remote.map PublicKey.mk⟩, ?_,
    rfl, rfl, up, down, rfl, pair.trans mine⟩
  simp only [exchange, ClientHandshake.finish, ClientHandshake.response, bind, Except.bind, read,
    name, pure, Except.pure]

/-! ### One handshake -/

variable {client : ClientHandshake}

/-- The digest of a handshake is that of the response to its request. -/
theorem digest?_eq_some_iff
    (started : ClientHandshake.start p w.service.config w.service.publicKey v.payload v.ephemeral =
      .ok client)
    (accepted : PendingHandshake.accept p w.service.config w.service.key client.request = .ok h)
    (digest : Bytes32) : w.digest? p v = some digest ↔ ∃ message finished,
      h.respond p v.fresh (w.service.earlyReply h.payload) = .ok (message, finished) ∧
        finished.hash = digest := by
  simp only [digest?, started, accepted]
  cases h.respond p v.fresh (w.service.earlyReply h.payload) with
  | error e => simp
  | ok answer =>
    constructor
    · intro known
      exact ⟨answer.1, answer.2, rfl, Option.some.inj known⟩
    · rintro ⟨_, _, responded, known⟩
      rw [← known, Except.ok.inj responded]

theorem connect_of_refused {e : ChannelError}
    (started : ClientHandshake.start p w.service.config w.service.publicKey v.payload v.ephemeral =
      .ok client)
    (replied : w.service.handshakeReply p v.now v.tag client.request v.draws v.fresh =
      (.error e, { w.service with registry := s })) :
    ∃ e', w.connect p v = (.error e', ⟨{ w.service with registry := s }, w.clients⟩) := by
  obtain ⟨e', failed⟩ := finish_exchange_error p client e v.tag
  exact ⟨e', by simp only [connect, started, replied, failed]⟩

theorem connect_of_answered {message : Bytes} {joined : ClientChannel}
    (started : ClientHandshake.start p w.service.config w.service.publicKey v.payload v.ephemeral =
      .ok client)
    (replied : w.service.handshakeReply p v.now v.tag client.request v.draws v.fresh =
      (.ok message, { w.service with registry := s }))
    (finished : client.finish p (exchange (.ok message)) v.tag = .ok joined) :
    w.connect p v =
      (.ok joined, ⟨{ w.service with registry := s }, w.clients ++ [joined]⟩) := by
  simp only [connect, started, replied, finished]

/-- The name of a newcomer is free, even if it is the transport's. -/
theorem Sound.free_of_newcomer (sound : Sound w) {id : ChannelId}
    (newcomer : w.service.config.idScheme = .transport → ∀ octets, tag = some octets →
      ∀ client ∈ w.clients, client.id ≠ .transport octets)
    (free : w.service.registry.slots[id]? = none ∨ (w.service.config.idScheme = .transport ∧
      PendingHandshake.peerId tag = .ok id)) : w.service.registry.slots[id]? = none := by
  rcases free with free | ⟨scheme, named⟩
  · exact free
  · obtain ⟨octets, tagged, read⟩ := PendingHandshake.peerId_ok_iff.mp named
    obtain ⟨rfl, -⟩ := ChannelId.decode_transport_iff.mp read
    exact sound.free_iff.mpr (newcomer scheme octets tagged)

/-- A handshake of an honest client: it joins, or nothing has changed. -/
theorem connect_cases (sealing : p.Sealing) (sound : Sound w) {key : Option Bytes32}
    (hkey : w.service.key = key.map (StaticKey.ofPrivate p))
    (keyed : w.service.config.pattern.usesResponderStatic = true → key ≠ none)
    (honest : w.Honest p (.connect v)) :
    (∃ r, (w.connect p v).2.service = ⟨w.service.config, w.service.key, r, w.service.handler⟩) ∧
    ((∃ client, Joins p w v client ∧ w.Admits p v) ∨
      ((∃ e, (w.connect p v).1 = .error e) ∧ (w.connect p v).2.clients = w.clients ∧
        SameTable w.service.registry (w.connect p v).2.service.registry ∧ ¬ w.Admits p v)) := by
  obtain ⟨fits, agreeFresh, agreeStatic, newcomer⟩ := honest
  have agree : ∀ k, key = some k → p.Agree v.ephemeral k := by
    rintro k rfl
    exact agreeStatic _ hkey
  have pinned : w.service.publicKey = key.map fun k => ⟨p.publicKey k⟩ := by
    rw [Service.publicKey, hkey]
    cases key <;> rfl
  obtain ⟨client, pending, started, accepted, payload, paired⟩ :=
    paired_of_fits sealing v.ephemeral keyed agree fits
  rw [← hkey] at accepted
  rw [← pinned] at started
  have config := paired.serverConfig
  have digest := digest?_eq_some_iff started accepted
  have replies := handshakeReply_cases v.now v.tag v.draws v.fresh accepted config
  rw [payload] at digest replies
  have hasName := nameFree_iff_hasName sound config digest
  rcases replies with ⟨e, s, replied, same, reason⟩ |
    ⟨response, s, replied, told, name, opens, room, free⟩
  · obtain ⟨e', connected⟩ := connect_of_refused started replied
    rw [connected]
    refine ⟨⟨s, rfl⟩, .inr ⟨⟨e', rfl⟩, rfl, same, ?_⟩⟩
    intro admits
    rcases reason with full | ⟨e, t, refused⟩
    · rw [admits.room] at full
      cases full
    · obtain ⟨response, s, prepared⟩ :=
        PendingHandshake.prepare_isOk (fun _ => paired.respond_ok_iff.mpr)
          (config ▸ admits.fits) admits.room (hasName.mpr admits.named)
      rw [refused] at prepared
      cases prepared
  · obtain ⟨joined, finished, id, reply, up, down, mine, theirs⟩ :=
      finish_exchange_ok sealing paired agreeFresh.symm (fun k static => (agree k static).symm) told
    have connected := connect_of_answered started replied finished
    have free := sound.free_of_newcomer newcomer free
    refine ⟨⟨s, by rw [connected]⟩, .inl ⟨joined, ?_, room free, ?_, hasName.mp name⟩⟩
    · rw [← id] at opens free
      rw [theirs] at opens
      exact {
        answer := by rw [connected]
        clients := by rw [connected]
        reply := reply
        admissible := id ▸ told.admissible
        scheme := by rw [id, told.scheme, config]
        free := free
        opens := ⟨up, down, mine, by rwa [connected]⟩ }
    · rw [← config]
      exact fitsResponse_of_says paired told

theorem Sound.links (sound : Sound w) : Links w.service.registry w.clients :=
  ⟨sound.distinct, sound.linked⟩

/-- The handshake of an honest client keeps the other clients' channels linked. -/
theorem sound_connect (sealing : p.Sealing) (sound : Sound w) {key : Option Bytes32}
    (hkey : w.service.key = key.map (StaticKey.ofPrivate p))
    (keyed : w.service.config.pattern.usesResponderStatic = true → key ≠ none)
    (honest : w.Honest p (.connect v)) : Sound (w.connect p v).2 := by
  obtain ⟨⟨r, service⟩, ⟨joined, joins, -⟩ | ⟨-, clients, same, -⟩⟩ :=
    connect_cases sealing sound hkey keyed honest
  · obtain ⟨up, down, pair, opens⟩ := joins.opens
    have links := sound.links.join opens (sound.free_iff.mp joins.free) (linked_new pair)
    rw [← joins.clients] at links
    refine ⟨links.distinct, ?_, links.linked, ?_⟩
    · intro client mem
      rw [service]
      rw [joins.clients] at mem
      rcases List.mem_append.mp mem with old | new
      · exact sound.named client old
      · rw [List.mem_singleton.mp new]
        exact ⟨joins.admissible, joins.scheme⟩
    · intro id used
      rw [joins.clients]
      by_cases same : joined.id = id
      · exact ⟨joined, by simp, same⟩
      · rw [opens.slots, if_neg same] at used
        obtain ⟨client, mem, named⟩ := sound.owned id used
        exact ⟨client, List.mem_append_left _ mem, named⟩
  · have links := sound.links.of_sameTable same
    rw [← clients] at links
    refine ⟨links.distinct, ?_, links.linked, ?_⟩
    · rw [clients, service]
      exact sound.named
    · intro id used
      rw [same.slots] at used
      rw [clients]
      exact sound.owned id used

end World

end SecureChannel
