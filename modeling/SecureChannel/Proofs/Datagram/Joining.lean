import SecureChannel.Proofs.Datagram.Session
import SecureChannel.Proofs.Service.Joining
import SecureChannel.Proofs.Service.Pinning

/-!
# Handshakes over datagrams

A handshake fails in many ways, and leaves different things behind. The request may not be sent, or
it may be refused, and then there is nothing at either end. A response that does not leave is given
up at once. One that leaves, but is too long for the client to read, stays behind at the server,
while the client has no channel. If all goes well, both ends have what they need for one channel,
which the server has still to make. `connect_cases` says that nothing else happens, and
`welcomed` when all goes well.
-/

namespace SecureChannel

open Registry DatagramServer

namespace Session

variable {p : Primitives} {w : Session} {m : Moment} {r : Registry}
variable {config : Config} {key : Option Bytes32} {handler : Bytes → Bytes} {hello : Hello}
variable {handshake : ClientHandshake} {pending : PendingHandshake} {channel : ClientChannel}

/-- Nothing stands in the way of a handshake but a wrong key, which the server can tell apart. -/
structure Fair (p : Primitives) (w : Session) (m : Moment) (hello : Hello) : Prop where
  token : m.token ∉ w.drawn
  agree : p.Agree hello.ephemeral m.fresh
  agreeStatic : ∀ key, w.service.key = some key → p.Agree hello.ephemeral key.privateKey
  apart : w.service.config.pattern = .nk → ∀ pinned k, hello.serverKey = some ⟨pinned⟩ →
    w.service.key = some (StaticKey.ofPrivate p k) → pinned ≠ p.publicKey k →
      Noise.TellsApart p pinned k hello.ephemeral hello.payload

/-- The client has the server's key, if it needs it. -/
def Pinned (w : Session) (hello : Hello) : Prop :=
  w.service.config.pattern.usesResponderStatic = true → hello.serverKey = w.service.publicKey

/-- The request of a client that has the server's key is written and read. -/
theorem Sound.paired (sealing : p.Sealing) (sound : Sound p config key handler w)
    (fair : w.Fair p m hello) (pinned : w.Pinned hello) (fits : FitsMessage hello.payload) :
    ∃ handshake pending, hello.start p w.service.config = .ok handshake ∧
      PendingHandshake.accept p w.service.config w.service.key handshake.request = .ok pending ∧
      pending.payload = hello.payload ∧
      Paired p w.service.config key hello.ephemeral handshake pending := by
  have own : w.service.publicKey = key.map fun k => ⟨p.publicKey k⟩ := by
    rw [Service.publicKey, sound.started.key]
    cases key <;> rfl
  have same : hello.start p w.service.config = ClientHandshake.start p w.service.config
      (key.map fun k => ⟨p.publicKey k⟩) hello.payload hello.ephemeral := by
    rw [← own, Hello.start]
    cases uses : w.service.config.pattern.usesResponderStatic with
    | true => rw [pinned uses]
    | false => exact ClientHandshake.start_of_unused uses ..
  rw [same, sound.started.key]
  refine paired_of_fits sealing hello.ephemeral ?_ ?_ fits
  · rw [sound.steady.configured]
    rintro uses rfl
    exact sound.started.keyed uses rfl
  · rintro k rfl
    exact fair.agreeStatic _ sound.started.key

/-- The server reads a request, or it tells that the client has pinned another key. -/
theorem Sound.accept_cases (sealing : p.Sealing) (sound : Sound p config key handler w)
    (fair : w.Fair p m hello) (started : hello.start p w.service.config = .ok handshake) :
    (∃ pending, PendingHandshake.accept p w.service.config w.service.key handshake.request =
        .ok pending ∧ Paired p w.service.config key hello.ephemeral handshake pending) ∨
    (∃ e, PendingHandshake.accept p w.service.config w.service.key handshake.request =
      .error e) := by
  by_cases pinned : w.Pinned hello
  · obtain ⟨handshake', pending, again, accepted, -, paired⟩ :=
      sound.paired sealing fair pinned (ClientHandshake.fits_of_start started)
    obtain rfl := Except.ok.inj (started.symm.trans again)
    exact .inl ⟨pending, accepted, paired⟩
  · simp only [Pinned, Classical.not_imp] at pinned
    obtain ⟨uses, wrong⟩ := pinned
    have pattern : w.service.config.pattern = .nk := by
      cases pattern : w.service.config.pattern with
      | nk => rfl
      | nn => rw [pattern] at uses; cases uses
    obtain ⟨k, rfl⟩ : ∃ k, key = some k := by
      cases key with
      | some k => exact ⟨k, rfl⟩
      | none => exact absurd rfl (sound.started.keyed (sound.steady.configured ▸ uses))
    cases pin : hello.serverKey with
    | none =>
      simp [Hello.start, ClientHandshake.start, pin, Noise.Initiator.new, Noise.Party.initiator,
        uses, bind, Except.bind] at started
    | some pinned =>
      obtain ⟨pinned⟩ := pinned
      have other : pinned ≠ p.publicKey k := by
        rintro rfl
        rw [pin, Service.publicKey, sound.started.key] at wrong
        exact wrong rfl
      have apart := fair.apart pattern pinned k pin sound.started.key other
      rw [Hello.start, pin] at started
      obtain ⟨text, refused⟩ := Service.accept_of_wrong_pin apart other pattern pattern
        sound.started.key started
      exact .inr ⟨_, refused⟩

def Moment.hail (m : Moment) (handshake : ClientHandshake) : Request :=
  ⟨.handshake (some m.token) handshake.request, some m.token⟩

/-- The tag that the server has for the client. -/
def tag (w : Session) (m : Moment) : Option Bytes :=
  transportTag w.service.config.codec (some m.token) w.peer

/-- The server during a handshake, with a response that it has made ready. -/
def promising (w : Session) (r : Registry) (one : Unsettled Asker) : Hosting :=
  ⟨⟨{ w.service with registry := r }, w.unsettled ++ [one]⟩, w.origins⟩

/-- The server has made a response ready, and the client has the other end of it. -/
structure Promises (w : Session) (m : Moment) (channel : ClientChannel) (one : Unsettled Asker)
    (r : Registry) : Prop where
  prepares : w.service.Prepares (w.tag m) one.response r
  name : one.response.naming.id = channel.id
  admissible : channel.id.Admissible
  scheme : channel.id.scheme = w.service.config.idScheme
  crossed : ∃ up down, channel.pair = .new up down w.service.config.nonceMode ∧
    one.response.pair = .new down up w.service.config.nonceMode

section Connect

variable {arrival : Arrival} {after : Session}

/-- A client that gets no response has no channel. -/
theorem finish_fails (p : Primitives) (handshake : ClientHandshake) (c : DatagramClient)
    (timeout : Nat) (tag : Option Bytes)
    (told : ∀ frame, arrival = .frame frame → ∃ token e, frame = replyTo token (.error e)) :
    ∃ e, handshake.finish p (c.exchange timeout arrival) tag = .error e := by
  cases arrival with
  | frame frame =>
    obtain ⟨token, e, rfl⟩ := told frame rfl
    rw [DatagramClient.exchange_replyTo]
    exact World.finish_exchange_error p handshake e tag
  | failed e => exact ⟨_, rfl⟩
  | none =>
    simp only [DatagramClient.exchange]
    split <;> exact ⟨_, rfl⟩

theorem connect_error (started : hello.start p w.service.config = .ok handshake)
    (exchanged : exchange p { w with toCaller := w.hail m.token } m (m.hail handshake) =
      (arrival, after))
    (told : ∀ frame, arrival = .frame frame → ∃ token e, frame = replyTo token (.error e)) :
    ∃ e, w.call p m (.connect hello) = (.error e, { after with
      toCaller := w.hail m.token
      doubtful := w.doubtful ++
        (after.unsettled.drop w.unsettled.length).map (·.response.naming.id) }) := by
  obtain ⟨e, failed⟩ := finish_fails p handshake (w.hail m.token).client
    handshake.config.handshakeTimeout (w.hail m.token).client.channelTag told
  refine ⟨e, ?_⟩
  rw [Moment.hail] at exchanged
  simp only [call, Caller.ask_connect started, exchanged, Caller.finish, failed, channelsAfter,
    doubts]

theorem connect_ok (started : hello.start p w.service.config = .ok handshake)
    (exchanged : exchange p { w with toCaller := w.hail m.token } m (m.hail handshake) =
      (arrival, after))
    (finished : handshake.finish p ((w.hail m.token).client.exchange
      handshake.config.handshakeTimeout arrival) (w.hail m.token).client.channelTag =
        .ok channel) :
    w.call p m (.connect hello) = (.ok (.channel channel), { after with
      toCaller := { w.hail m.token with channels := w.kept ++ [channel] }
      doubtful := w.doubtsOnJoin channel.id }) := by
  rw [Moment.hail] at exchanged
  simp only [call, Caller.ask_connect started, exchanged, Caller.finish, finished, channelsAfter,
    doubts]

variable {e : ChannelError} {one : Unsettled Asker} {response : PreparedResponse}
variable {v : Running Asker}

theorem Sound.connect_refused (sound : Sound p config key handler w)
    (started : hello.start p w.service.config = .ok handshake)
    (reaches : m.Reaches (m.hail handshake).frame)
    (prepared : w.toRunning.prepare p ⟨w.peer, some m.token⟩ (w.tag m) handshake.request m.draws
      m.fresh = (.error e, { w.toRunning with service := { w.service with registry := r } })) :
    ∃ e, w.call p m (.connect hello) =
      (.error e, { w with toCaller := w.hail m.token, toHosting := w.serving r }) := by
  have received := Hosting.receive_handshake p w.toHosting m.now w.peer (some m.token)
    handshake.request m.draws m.fresh
  rw [← tag, prepared] at received
  have exchanged := exchange_answered (w := { w with toCaller := w.hail m.token }) (p := p)
    sound.inbox reaches rfl received (.inr rfl)
  obtain ⟨e', failed⟩ := connect_error started exchanged (by
    intro frame told
    split at told
    · cases told
      exact ⟨_, e, rfl⟩
    · cases told)
  refine ⟨e', ?_⟩
  simpa [serving] using failed

/-- What the server hands to its socket when it has made a response ready. -/
theorem receive_promises
    (prepared : w.toRunning.prepare p ⟨w.peer, some m.token⟩ (w.tag m) handshake.request m.draws
      m.fresh = (.ok response, ⟨{ w.service with registry := r }, w.unsettled ++ [one]⟩)) :
    w.toHosting.receive p m.now w.peer (m.hail handshake).frame.encode m.draws m.fresh =
      (some ⟨w.peer, replyTo (some m.token) (.ok response.message)⟩, w.promising r one) := by
  rw [Moment.hail, Hosting.receive_handshake, ← tag, prepared]
  rfl

theorem Sound.connect_unsent (sound : Sound p config key handler w)
    (started : hello.start p w.service.config = .ok handshake)
    (reaches : m.Reaches (m.hail handshake).frame)
    (prepared : w.toRunning.prepare p ⟨w.peer, some m.token⟩ (w.tag m) handshake.request m.draws
      m.fresh = (.ok one.response, ⟨{ w.service with registry := r }, w.unsettled ++ [one]⟩))
    (prepares : w.service.Prepares (w.tag m) one.response r)
    (failed : m.down (replyTo (some m.token) (.ok one.response.message)) ≠ .delivered) :
    ∃ e t, w.call p m (.connect hello) =
      (.error e, { w with toCaller := w.hail m.token, toHosting := w.serving t }) ∧
      SameTable w.service.registry t := by
  obtain ⟨arrival, exchanged, told⟩ := exchange_unsent
    (w := { w with toCaller := w.hail m.token }) (p := p) sound.inbox reaches rfl
    (receive_promises prepared) failed
  obtain ⟨e, t, settled, same⟩ := prepares.abandoned m.now failed
  have left : ((w.promising r one).settle m.now w.unsettled.length
      (m.down (replyTo (some m.token) (.ok one.response.message)))).2 = w.serving t := by
    simp only [Hosting.settle, Running.settle, promising, List.getElem?_concat_length, settled,
      List.eraseIdx_append_of_length_le (Nat.le_refl _), Nat.sub_self, List.eraseIdx_cons_zero,
      List.append_nil]
    rfl
  change _ = (arrival, { w with toCaller := w.hail m.token, toHosting := ((w.promising r one).settle
    m.now w.unsettled.length (m.down (replyTo (some m.token) (.ok one.response.message)))).2 })
    at exchanged
  rw [left] at exchanged
  obtain ⟨e', refused⟩ := connect_error started exchanged fun frame arrived =>
    ⟨_, told frame arrived⟩
  exact ⟨e', t, by simpa [serving] using refused, same⟩

/-- The response leaves the server, but is too long for the client to read. -/
theorem Sound.connect_unread (sound : Sound p config key handler w)
    (started : hello.start p w.service.config = .ok handshake)
    (reaches : m.Reaches (m.hail handshake).frame)
    (prepared : w.toRunning.prepare p ⟨w.peer, some m.token⟩ (w.tag m) handshake.request m.draws
      m.fresh = (.ok one.response, ⟨{ w.service with registry := r }, w.unsettled ++ [one]⟩))
    (left : m.down (replyTo (some m.token) (.ok one.response.message)) = .delivered)
    (long : ¬ m.Returns (replyTo (some m.token) (.ok one.response.message))) :
    ∃ e, w.call p m (.connect hello) = (.error e, { w with
      toCaller := w.hail m.token
      toHosting := w.promising r one
      doubtful := w.doubtful ++ [one.response.naming.id] }) := by
  have exchanged := exchange_answered (w := { w with toCaller := w.hail m.token }) (p := p)
    sound.inbox reaches rfl (receive_promises prepared) (.inl left)
  rw [if_neg long] at exchanged
  obtain ⟨e, failed⟩ := connect_error started exchanged (by simp)
  exact ⟨e, by simpa [promising] using failed⟩

/-- The client gets the response, and has the channel that the server has promised. -/
theorem Sound.connect_joins (sealing : p.Sealing) (sound : Sound p config key handler w)
    (fair : w.Fair p m hello) (started : hello.start p w.service.config = .ok handshake)
    (accepted : PendingHandshake.accept p w.service.config w.service.key handshake.request =
      .ok pending)
    (paired : Paired p w.service.config key hello.ephemeral handshake pending)
    (reaches : m.Reaches (m.hail handshake).frame)
    (prepared : w.toRunning.prepare p ⟨w.peer, some m.token⟩ (w.tag m) handshake.request m.draws
      m.fresh = (.ok one.response, ⟨{ w.service with registry := r }, w.unsettled ++ [one]⟩))
    (prepares : w.service.Prepares (w.tag m) one.response r)
    (returns : m.Returns (replyTo (some m.token) (.ok one.response.message))) :
    ∃ channel, w.call p m (.connect hello) = (.ok (.channel channel), { w with
        toCaller := { w.hail m.token with channels := w.kept ++ [channel] }
        toHosting := w.promising r one
        doubtful := w.doubtsOnJoin channel.id }) ∧
      w.Promises m channel one r := by
  have exchanged := exchange_answered (w := { w with toCaller := w.hail m.token }) (p := p)
    sound.inbox reaches rfl (receive_promises prepared) (.inl returns.1)
  rw [if_pos returns] at exchanged
  have told : one.response.Says p pending (w.tag m) (w.service.earlyReply pending.payload)
      m.fresh := by
    have ready : (w.service.prepareHandshake p (w.tag m) handshake.request m.draws m.fresh).1 =
        .ok one.response := by
      rw [Running.prepare] at prepared
      split at prepared
      · cases prepared
      · next made =>
        rw [made]
        exact congrArg Prod.fst prepared
    simp only [Service.prepareHandshake, accepted] at ready
    exact (PendingHandshake.prepare_ok (Prod.ext ready rfl)).informs
  obtain ⟨channel, finished, id, -, up, down, mine, theirs⟩ :=
    World.finish_exchange_ok sealing paired fair.agree.symm (by
      rintro k rfl
      exact (fair.agreeStatic _ sound.started.key).symm) told
  refine ⟨channel, connect_ok started exchanged ?_, prepares, id.symm, ?_, ?_, up, down, mine,
    theirs⟩
  · rw [DatagramClient.exchange_replyTo]
    rw [tag, sound.tag_eq] at finished
    exact finished
  · rw [id]
    exact told.admissible
  · rw [id, told.scheme, paired.serverConfig]

end Connect

/-- A handshake leaves no trace, or the server has a handshake to settle that the client has given
up, or both ends have what they need for one channel. -/
theorem Sound.connect_cases (sealing : p.Sealing) (sound : Sound p config key handler w)
    (fair : w.Fair p m hello) :
    (∃ e caller r, w.call p m (.connect hello) =
        (.error e, { w with toCaller := caller, toHosting := w.serving r }) ∧
      (caller = w.toCaller ∨ caller = w.hail m.token) ∧ SameTable w.service.registry r) ∨
    (∃ e one r, w.call p m (.connect hello) = (.error e, { w with
        toCaller := w.hail m.token
        toHosting := w.promising r one
        doubtful := w.doubtful ++ [one.response.naming.id] }) ∧
      w.service.Prepares (w.tag m) one.response r) ∨
    (∃ channel one r, w.call p m (.connect hello) = (.ok (.channel channel), { w with
        toCaller := { w.hail m.token with channels := w.kept ++ [channel] }
        toHosting := w.promising r one
        doubtful := w.doubtsOnJoin channel.id }) ∧
      w.Promises m channel one r) := by
  cases started : hello.start p w.service.config with
  | error e =>
    exact .inl ⟨e, w.toCaller, w.service.registry, by simp only [call, Caller.ask, started]; rfl,
      .inl rfl, .refl _⟩
  | ok handshake =>
    by_cases reaches : m.Reaches (m.hail handshake).frame
    · rcases w.toRunning.prepare_cases p ⟨w.peer, some m.token⟩ (w.tag m) handshake.request m.draws
        m.fresh with ⟨e, r, prepared, same⟩ | ⟨response, r, prepared, prepares⟩
      · obtain ⟨e', failed⟩ := sound.connect_refused started reaches prepared
        exact .inl ⟨e', _, r, failed, .inr rfl, same⟩
      · rcases sound.accept_cases sealing fair started with
          ⟨pending, accepted, paired⟩ | ⟨e, refused⟩
        · generalize made : (⟨⟨w.peer, some m.token⟩, w.tag m, response⟩ : Unsettled Asker) = one
            at prepared
          obtain rfl : response = one.response := by rw [← made]
          by_cases left : m.down (replyTo (some m.token) (.ok one.response.message)) = .delivered
          · by_cases returns : m.Returns (replyTo (some m.token) (.ok one.response.message))
            · obtain ⟨channel, joined, promises⟩ := sound.connect_joins sealing fair started
                accepted paired reaches prepared prepares returns
              exact .inr (.inr ⟨channel, _, r, joined, promises⟩)
            · obtain ⟨e, failed⟩ := sound.connect_unread started reaches prepared left returns
              exact .inr (.inl ⟨e, _, r, failed, prepares⟩)
          · obtain ⟨e, t, failed, same⟩ :=
              sound.connect_unsent started reaches prepared prepares left
            exact .inl ⟨e, _, t, failed, .inr rfl, same⟩
        · simp [Running.prepare, Service.prepareHandshake, refused] at prepared
    · -- The request was not sent. Its token has been drawn all the same.
      obtain ⟨arrival, exchanged, told⟩ :=
        exchange_lost (w := { w with toCaller := w.hail m.token }) (p := p) reaches
      obtain ⟨e, failed⟩ := connect_error started exchanged (by
        rintro frame rfl
        cases told)
      exact .inl ⟨e, _, w.service.registry, by simpa [serving] using failed, .inr rfl, .refl _⟩

/-- The server can take the client in: the client has the server's key, the network delivers, there
is room, what both have to say to each other is short, and the registry has a name for the channel.
Where the transport names channels, there always is one. -/
structure Admits (p : Primitives) (w : Session) (m : Moment) (hello : Hello) : Prop where
  pinned : w.Pinned hello
  delivers : m.Delivers
  room : w.service.registry.isFull = false
  payload : hello.payload.length ≤ maxCarried
  reply : (w.service.earlyReply hello.payload).length ≤ maxCarried
  name : w.service.config.idScheme ≠ .transport → ∀ handshake pending,
    hello.start p w.service.config = .ok handshake →
    PendingHandshake.accept p w.service.config w.service.key handshake.request = .ok pending →
      pending.NameFree p w.service.registry (w.tag m) (w.service.earlyReply hello.payload) m.draws
        m.fresh

/-- Where the transport names channels, it has a name for every peer. -/
theorem Sound.peerId (sound : Sound p config key handler w)
    (scheme : w.service.config.idScheme = .transport) (m : Moment) :
    ∃ id, PendingHandshake.peerId (w.tag m) = .ok id := by
  have requires : w.service.config.codec.requiresTransportId = true := by
    rw [sound.steady.configured] at scheme ⊢
    rwa [Config.requiresTransportId_iff_of_valid sound.started.valid]
  have short : m.token.length ≤ 90 := by
    rw [m.sized, tokenLength]
    decide
  obtain ⟨octets, known⟩ : ∃ octets, w.tag m = some octets := by
    rw [tag]
    cases codec : w.service.config.codec with
    | envelope => simp [codec, Codec.requiresTransportId] at requires
    | tokenReuse | query | routing => exact ⟨_, rfl⟩
  exact ⟨.transport octets, PendingHandshake.peerId_ok_iff.mpr
    ⟨octets, known, ChannelId.decode_transport_iff.mpr ⟨rfl, length_transportTag short known⟩⟩⟩

/-- For a client that the server can take in, it makes a response ready that the client can read. -/
theorem Sound.answers (sealing : p.Sealing) (sound : Sound p config key handler w)
    (admits : w.Admits p m hello) (started : hello.start p w.service.config = .ok handshake)
    (accepted : PendingHandshake.accept p w.service.config w.service.key handshake.request =
      .ok pending) (read : pending.payload = hello.payload)
    (paired : Paired p w.service.config key hello.ephemeral handshake pending) :
    ∃ response r, w.service.prepareHandshake p (w.tag m) handshake.request m.draws m.fresh =
        (.ok response, { w.service with registry := r }) ∧
      w.service.Prepares (w.tag m) response r ∧
      m.Returns (replyTo (some m.token) (.ok response.message)) := by
  obtain ⟨-, delivers, room, -, reply, name⟩ := admits
  rw [maxCarried] at reply
  have token : m.token.length = 8 := m.sized
  have free : pending.NameFree p w.service.registry (w.tag m)
      (w.service.earlyReply hello.payload) m.draws m.fresh := by
    by_cases scheme : w.service.config.idScheme = .transport
    · rw [PendingHandshake.NameFree, paired.serverConfig, scheme]
      exact sound.peerId scheme m
    · exact name scheme handshake pending started accepted
  have fitsReply : FitsResponse pending.config.idScheme (w.service.earlyReply hello.payload) := by
    have assigned := assignedLength_le pending.config.idScheme
    rw [FitsResponse, Noise.Party.keyLength, Noise.Party.tagLength, Noise.Party.maxMessage]
    omega
  obtain ⟨response, r, ready⟩ :=
    PendingHandshake.prepare_isOk (fun _ => paired.respond_ok_iff.mpr) fitsReply room free
  have handled : w.service.prepareHandshake p (w.tag m) handshake.request m.draws m.fresh =
      (.ok response, { w.service with registry := r }) := by
    simp only [Service.prepareHandshake, accepted, read, ready]
  refine ⟨response, r, handled, ?_, ?_⟩
  · rcases Service.prepareHandshake_cases p w.service (w.tag m) handshake.request m.draws m.fresh
      with ⟨e, s, refused, -⟩ | ⟨other, s, again, prepares⟩
    · rw [handled] at refused
      cases refused
    · rw [handled] at again
      obtain ⟨rfl, rfl⟩ := by simpa using again
      exact prepares
  · have length := World.length_of_says sealing paired (PendingHandshake.prepare_ok ready).informs
    rw [Noise.Party.keyLength, Noise.Party.tagLength] at length
    exact (delivers _ (Frame.fits_reply (by omega))).2

/-- A client that the server can take in gets its channel. The other end is in the response that the
server makes ready. -/
theorem Sound.welcomed (sealing : p.Sealing) (sound : Sound p config key handler w)
    (fair : w.Fair p m hello) (admits : w.Admits p m hello) :
    ∃ handshake channel one r, hello.start p w.service.config = .ok handshake ∧
      w.service.prepareHandshake p (w.tag m) handshake.request m.draws m.fresh =
        (.ok one.response, { w.service with registry := r }) ∧
      w.call p m (.connect hello) = (.ok (.channel channel), { w with
        toCaller := { w.hail m.token with channels := w.kept ++ [channel] }
        toHosting := w.promising r one
        doubtful := w.doubtsOnJoin channel.id }) ∧
      w.Promises m channel one r := by
  have payload := admits.payload
  rw [maxCarried] at payload
  have token : m.token.length = 8 := m.sized
  have fits : FitsMessage hello.payload := by
    rw [FitsMessage, Noise.Party.keyLength, Noise.Party.tagLength, Noise.Party.maxMessage]
    omega
  obtain ⟨handshake, pending, started, accepted, read, paired⟩ :=
    sound.paired sealing fair admits.pinned fits
  have sent : (m.hail handshake).frame.fits = true := by
    have length := ClientHandshake.length_request_le sealing started
    rw [Noise.Party.keyLength, Noise.Party.tagLength] at length
    exact Frame.fits_handshake (by omega)
  obtain ⟨response, r, handled, prepares, returned⟩ :=
    sound.answers sealing admits started accepted read paired
  generalize made : (⟨⟨w.peer, some m.token⟩, w.tag m, response⟩ : Unsettled Asker) = one
  obtain rfl : response = one.response := by rw [← made]
  have prepared : w.toRunning.prepare p ⟨w.peer, some m.token⟩ (w.tag m) handshake.request m.draws
      m.fresh = (.ok one.response, ⟨{ w.service with registry := r }, w.unsettled ++ [one]⟩) := by
    simp only [Running.prepare, handled, made]
  obtain ⟨channel, joined, promises⟩ := sound.connect_joins sealing fair started accepted paired
    (admits.delivers _ sent).1 prepared prepares returned
  exact ⟨handshake, channel, one, r, started, handled, joined, promises⟩

end Session

end SecureChannel
