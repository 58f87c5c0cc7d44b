import SecureChannel.Proofs.Noise.Outcome
import SecureChannel.Proofs.PendingHandshake.Completion
import SecureChannel.Proofs.Registry.Locality

/-!
# What a request to a server cannot touch

A message and a request to close are about the name that they decode to: `receive_cases` says that
either nothing was decoded and nothing happens, or all that happens is confined to that name.
`Receives` is the view of a message that was opened: the channel it was opened on is live under the
name, and only the channel's receiving direction has moved.

A handshake leaves no trace, or opens a channel.
-/

namespace SecureChannel

open Registry PreparedResponse

variable {p : Primitives} {now : Nat} {tag : Option Bytes} {draws : Nat → Nat} {fresh : Bytes32}
variable {transport : Bytes → Delivery} {request ad plaintext : Bytes} {id : ChannelId}
variable {h : Handle} {m : Message} {s t : Service}

/-! ### Handshakes -/

theorem PendingHandshake.accept_ok {config : Config} {key : Option StaticKey}
    {pending : PendingHandshake} (accepted : accept p config key request = .ok pending) :
    pending.config = config ∧ pending.responder.mode = config.nonceMode := by
  rw [accept] at accepted
  split at accepted
  · next opened =>
    cases accepted
    obtain ⟨responder, made, read⟩ := bind_eq_ok_iff.mp opened
    have kept := congrArg Noise.Responder.mode (Noise.Responder.readRequest_ok_iff.mp read).2
    exact ⟨rfl, kept.trans (Noise.Responder.new_ok made).2⟩
  · cases accepted

/-- A response that was made ready comes with fresh directions in the mode of the handshake. -/
theorem PendingHandshake.Prepares.pair {pending : PendingHandshake} {r s : Registry}
    {reply : Bytes} {response : PreparedResponse}
    (prepares : pending.Prepares p r tag reply draws fresh response s) :
    ∃ send receive, response.pair = .new send receive pending.responder.mode := by
  have responded : ∀ {payload message finished},
      pending.respond p fresh payload = .ok (message, finished) →
        ∃ send receive, finished.pair = .new send receive pending.responder.mode := by
    intro payload message finished answer
    rw [respond] at answer
    split at answer
    · next written =>
      cases answer
      exact Noise.Responder.writeResponse_ok written
    · cases answer
  cases prepares with
  | assigned _ _ answer => exact responded answer
  | bound _ answer _ => exact responded answer
  | named _ _ answer => exact responded answer

/-- There is a channel only if the response was delivered, and it gets the next handle. -/
theorem PreparedResponse.Ready.opens_of_ok {pending : PendingHandshake} {r s : Registry}
    {response : PreparedResponse} (ready : response.Ready pending r tag s) {delivery : Delivery}
    (answer : (response.settle s now delivery).1 = .ok h) :
    delivery = .delivered ∧ h = ⟨r.channels.size⟩ ∧
      r.Opens response.naming.id response.pair now (response.settle s now delivery).2 := by
  cases delivery with
  | failed e => simp [settle] at answer
  | stalled => simp [settle] at answer
  | delivered =>
    cases ready with
    | held res naming granted =>
      simp only [settle, establish, naming, Naming.id] at answer ⊢
      have opens := granted.opens response.pair now
      obtain ⟨-, -, rfl⟩ := granted
      cases answer
      exact ⟨trivial, rfl, opens⟩
    | taken id naming scheme named same =>
      subst same
      simp only [settle, establish, naming, Naming.id, rekey] at answer ⊢
      split at answer
      · cases answer
      · next room =>
        cases answer
        rw [if_neg room]
        exact ⟨trivial, rfl, opens_setLive s id response.pair now⟩

namespace Service

theorem handleHandshake_service (p : Primitives) (s : Service) (now : Nat) (tag : Option Bytes)
    (request : Bytes) (draws : Nat → Nat) (fresh : Bytes32) (transport : Bytes → Delivery) :
    ∃ r, (s.handleHandshake p now tag request draws fresh transport).2 =
      { s with registry := r } := by
  rw [handleHandshake]
  split <;> exact ⟨_, rfl⟩

/-- A handshake that succeeds opens a channel under the next handle. -/
theorem opens_of_handshake
    (answer : (s.handleHandshake p now tag request draws fresh transport).1.answer = .ok h) :
    ∃ id pair, s.registry.Opens id pair now
      (s.handleHandshake p now tag request draws fresh transport).2.registry := by
  cases accepted : PendingHandshake.accept p s.config s.key request with
  | error e => simp [handleHandshake, accepted] at answer
  | ok pending =>
    simp only [handleHandshake, accepted, PendingHandshake.complete] at answer ⊢
    rcases prepared : pending.prepare p s.registry tag (s.earlyReply pending.payload) draws fresh
      with ⟨e | response, r⟩
    · simp [prepared, deliver] at answer
    · simp only [prepared, deliver] at answer ⊢
      obtain ⟨-, -, opens⟩ := (PendingHandshake.prepare_ok prepared).ready.opens_of_ok answer
      exact ⟨_, _, opens⟩

/-! ### Messages and requests to close -/

/-- A message was opened on the channel `h`, which had the state `c`. -/
structure Receives (p : Primitives) (s : Service) (ad : Bytes) (m : Message) (id : ChannelId)
    (h : Handle) (c : Channel) (ciphertext plaintext : Bytes) (decrypter : CipherState)
    (t : Service) : Prop where
  decoded : s.config.codec.decode s.config.idScheme m = .ok (id, ciphertext)
  live : s.registry.live? id = some h
  found : s.registry.channel? h = some c
  name : c.id = id
  opened : c.pair.decrypter.decrypt p ad ciphertext = .ok (plaintext, decrypter)
  updates : ∃ d, s.registry.Updates h d t.registry ∧ d.id = c.id ∧
    d.pair = { c.pair with decrypter := decrypter }
  service : t = { s with registry := t.registry }

theorem openOn_ok {r u : Registry} {c : Channel} {ciphertext : Bytes}
    (found : r.channel? h = some c)
    (answer : openOn p r h now ad ciphertext = (.ok plaintext, u)) :
    ∃ decrypter, c.pair.decrypter.decrypt p ad ciphertext = .ok (plaintext, decrypter) ∧
      ∃ d, r.Updates h d u ∧ d.id = c.id ∧ d.pair = { c.pair with decrypter := decrypter } := by
  obtain ⟨answered, updates⟩ := step_eq (f := fun c => c.decrypt p now ad ciphertext) found
  change (r.decrypt p h now ad ciphertext).1 = _ at answered
  change r.Updates h _ (r.decrypt p h now ad ciphertext).2 at updates
  rw [openOn] at answer
  split at answer
  · cases answer
  · cases answer
  · rw [answer] at answered updates
    simp only [Channel.decrypt] at answered updates
    split at answered
    · next opened =>
      simp only [opened] at updates
      cases answered
      exact ⟨_, opened, _, updates, rfl, rfl⟩
    · cases answered

/-- Refusing a message, and counting that, is about the channel of the message alone. -/
theorem confined_openOn (p : Primitives) {r : Registry} {c : Channel}
    (found : r.channel? h = some c) (now : Nat) (ad ciphertext : Bytes) :
    Confined c.id r (openOn p r h now ad ciphertext).2 := by
  have confined := confined_decrypt p found now ad ciphertext
  have counted : Confined c.id r ((r.decrypt p h now ad ciphertext).2.recordFailure h).2 := by
    obtain ⟨d, found', advances⟩ := confined.channels h c found
    have failure := confined_recordFailure found'
    rw [advances.id] at failure
    exact confined.trans failure
  rw [openOn]
  split
  · next answer =>
    rw [answer] at counted
    exact counted
  · next answer =>
    rw [answer] at counted
    exact counted
  · exact confined

theorem receive_service (p : Primitives) (s : Service) (now : Nat) (ad : Bytes) (m : Message) :
    ∃ r, (s.receive p now ad m).2 = { s with registry := r } := by
  rw [receive]
  split
  · exact ⟨_, rfl⟩
  · split <;> exact ⟨_, rfl⟩

/-- The application has no part in receiving a message. -/
theorem receive_withHandler (p : Primitives) (s : Service) (handler : Bytes → Bytes) (now : Nat)
    (ad : Bytes) (m : Message) : { s with handler := handler }.receive p now ad m =
      ((s.receive p now ad m).1, { (s.receive p now ad m).2 with handler := handler }) := by
  simp only [receive, resolve]
  split
  · rfl
  · split <;> rfl

theorem receives_of_ok (named : Named s.registry)
    (answer : s.receive p now ad m = (.ok (id, h, plaintext), t)) :
    ∃ c ciphertext decrypter, Receives p s ad m id h c ciphertext plaintext decrypter t := by
  obtain ⟨r, service⟩ := receive_service p s now ad m
  rw [answer] at service
  rw [receive, resolve] at answer
  cases decoded : s.config.codec.decode s.config.idScheme m with
  | error e => simp [decoded] at answer
  | ok message =>
    obtain ⟨id', ciphertext⟩ := message
    rcases looked : s.registry.lookup id' now with ⟨e | h', r'⟩
    · simp [decoded, looked] at answer
    · simp only [decoded, looked] at answer
      obtain ⟨c, live, found, name, touched⟩ := lookup_ok named looked
      split at answer
      · cases answer
      · next text u opened =>
        cases answer
        obtain ⟨decrypter, opens, d, updates, id, pair⟩ := openOn_ok touched.changed opened
        exact ⟨c, ciphertext, decrypter, decoded, live, found, name, opens,
          ⟨d, touched.trans updates, id, pair⟩, rfl⟩

/-- A message that its channel can open is received, and the channel has moved on. -/
theorem receive_isOk {c : Channel} {ciphertext : Bytes} {decrypter : CipherState} (now : Nat)
    (decoded : s.config.codec.decode s.config.idScheme m = .ok (id, ciphertext))
    (live : s.registry.live? id = some h) (found : s.registry.channel? h = some c)
    (opened : c.pair.decrypter.decrypt p ad ciphertext = .ok (plaintext, decrypter)) :
    ∃ r d, s.receive p now ad m = (.ok (id, h, plaintext), { s with registry := r }) ∧
      s.registry.Updates h d r ∧ d.id = c.id ∧ d.pair = { c.pair with decrypter := decrypter } := by
  have touched := updates_modifyChannel found fun c => c.touch now
  obtain ⟨r, d, decrypted, updates, name, pair⟩ := decrypt_eq touched.changed now opened
  refine ⟨r, d, ?_, touched.trans updates, name, pair⟩
  simp only [receive, resolve, decoded, lookup_of_live? live, openOn, decrypted]

/-- A message that makes no sense does nothing; every other one is about the name it decodes to. -/
theorem receive_cases (p : Primitives) (named : Named s.registry) (now : Nat) (ad : Bytes)
    (m : Message) :
    (∃ e, s.config.codec.decode s.config.idScheme m = .error e ∧
      s.receive p now ad m = (.error (.codec e), s)) ∨
    (∃ id ciphertext, s.config.codec.decode s.config.idScheme m = .ok (id, ciphertext) ∧
      Confined id s.registry (s.receive p now ad m).2.registry) := by
  cases decoded : s.config.codec.decode s.config.idScheme m with
  | error e =>
    refine .inl ⟨e, rfl, ?_⟩
    simp only [receive, resolve, decoded]
  | ok message =>
    obtain ⟨id, ciphertext⟩ := message
    refine .inr ⟨id, ciphertext, rfl, ?_⟩
    rcases looked : s.registry.lookup id now with ⟨e | h, r⟩
    · simp only [receive, resolve, decoded, looked]
      rw [lookup_error looked]
      exact .refl id s.registry
    · obtain ⟨c, live, found, rfl, touched⟩ := lookup_ok named looked
      have opening := confined_openOn p touched.changed now ad ciphertext
      have confined := (touched.confined found (.of_pair rfl rfl)).trans opening
      simp only [receive, resolve, decoded, looked]
      split
      · next answer =>
        rw [answer] at confined
        exact confined
      · next answer =>
        rw [answer] at confined
        exact confined

theorem Receives.channel {c : Channel} {ciphertext : Bytes} {decrypter : CipherState}
    (receives : Receives p s ad m id h c ciphertext plaintext decrypter t) :
    ∃ d, t.registry.channel? h = some d ∧ d.id = id ∧
      d.pair = { c.pair with decrypter := decrypter } := by
  obtain ⟨d, updates, name, pair⟩ := receives.updates
  exact ⟨d, updates.changed, name.trans receives.name, pair⟩

theorem handleMessage_service (p : Primitives) (s : Service) (now : Nat) (m : Message) :
    ∃ r, (s.handleMessage p now m).2 = { s with registry := r } := by
  obtain ⟨r, service⟩ := receive_service p s now [] m
  rw [handleMessage]
  split
  · next answer =>
    rw [answer] at service
    exact ⟨r, service⟩
  · next answer =>
    rw [answer] at service
    obtain rfl := service
    exact ⟨_, rfl⟩

theorem handleClose_service (p : Primitives) (s : Service) (now : Nat) (m : Message) :
    ∃ r, (s.handleClose p now m).2 = { s with registry := r } := by
  obtain ⟨r, service⟩ := receive_service p s now closeMarker m
  rw [handleClose]
  split
  · next answer =>
    rw [answer] at service
    exact ⟨r, service⟩
  · next answer =>
    rw [answer] at service
    obtain rfl := service
    split <;> exact ⟨_, rfl⟩

/-- What serving a message does is confined to the name that the message decodes to. -/
theorem handleMessage_cases (p : Primitives) (named : Named s.registry) (now : Nat) (m : Message) :
    (∃ e, s.config.codec.decode s.config.idScheme m = .error e ∧
      (s.handleMessage p now m).2 = s) ∨
    (∃ id ciphertext, s.config.codec.decode s.config.idScheme m = .ok (id, ciphertext) ∧
      Confined id s.registry (s.handleMessage p now m).2.registry) := by
  rcases receive_cases p named now [] m with
    ⟨e, decoded, answer⟩ | ⟨id, ciphertext, decoded, confined⟩
  · refine .inl ⟨e, decoded, ?_⟩
    rw [handleMessage, answer]
  · refine .inr ⟨id, ciphertext, decoded, ?_⟩
    rw [handleMessage]
    split
    · next answer =>
      rw [answer] at confined
      exact confined
    · next id' h plaintext t answer =>
      obtain ⟨c, octets, decrypter, receives⟩ := receives_of_ok named answer
      obtain ⟨rfl, -⟩ := Prod.mk.inj (Except.ok.inj (decoded.symm.trans receives.decoded))
      obtain ⟨d, found, rfl, -⟩ := receives.channel
      rw [answer] at confined
      exact confined.trans (confined_encrypt p found now [] (t.handler plaintext))

/-- The application's answer is sealed on the channel that the message was received on. -/
theorem evolves_of_receives
    (received : s.receive p now [] m = (.ok (id, h, plaintext), t)) {d : Channel}
    (found : t.registry.channel? h = some d) :
    Evolves t.registry (s.handleMessage p now m).2.registry := by
  rw [handleMessage, received]
  exact (confined_encrypt p found now [] (t.handler plaintext)).toEvolves

/-- What serving a request to close does is confined to the name that the request decodes to. -/
theorem handleClose_cases (p : Primitives) (named : Named s.registry) (now : Nat) (m : Message) :
    (∃ e, s.config.codec.decode s.config.idScheme m = .error e ∧
      (s.handleClose p now m).2 = s) ∨
    (∃ id ciphertext, s.config.codec.decode s.config.idScheme m = .ok (id, ciphertext) ∧
      Confined id s.registry (s.handleClose p now m).2.registry) := by
  rcases receive_cases p named now closeMarker m with
    ⟨e, decoded, answer⟩ | ⟨id, ciphertext, decoded, confined⟩
  · refine .inl ⟨e, decoded, ?_⟩
    rw [handleClose, answer]
  · refine .inr ⟨id, ciphertext, decoded, ?_⟩
    rw [handleClose]
    split
    · next answer =>
      rw [answer] at confined
      exact confined
    · next id' h plaintext t answer =>
      obtain ⟨c, octets, decrypter, receives⟩ := receives_of_ok named answer
      obtain ⟨rfl, -⟩ := Prod.mk.inj (Except.ok.inj (decoded.symm.trans receives.decoded))
      obtain ⟨d, found, rfl, -⟩ := receives.channel
      rw [answer] at confined
      have removed := confined.trans (confined_removeChannel found)
      split
      · next removal =>
        rw [removal] at removed
        exact removed
      · next removal =>
        rw [removal] at removed
        exact removed

/-! ### The registry evolves -/

/-- What is confined to a name is an evolution; what makes no sense is none. -/
theorem evolves_of_cases
    (cases : (∃ e, s.config.codec.decode s.config.idScheme m = .error e ∧ t = s) ∨
      ∃ id ciphertext, s.config.codec.decode s.config.idScheme m = .ok (id, ciphertext) ∧
        Confined id s.registry t.registry) : Evolves s.registry t.registry := by
  rcases cases with ⟨_, -, rfl⟩ | ⟨_, _, -, confined⟩
  · exact .refl _
  · exact confined.toEvolves

theorem evolves_handleHandshake (p : Primitives) (s : Service) (now : Nat) (tag : Option Bytes)
    (request : Bytes) (draws : Nat → Nat) (fresh : Bytes32) (transport : Bytes → Delivery) :
    Evolves s.registry
      (s.handleHandshake p now tag request draws fresh transport).2.registry := by
  cases answer : (s.handleHandshake p now tag request draws fresh transport).1.answer with
  | error e => exact .of_sameTable (PendingHandshake.handleHandshake_error s request answer)
  | ok h =>
    obtain ⟨id, pair, opens⟩ := opens_of_handshake answer
    exact opens.confined.toEvolves

theorem evolves_handleMessage (p : Primitives) (named : Named s.registry) (now : Nat)
    (m : Message) : Evolves s.registry (s.handleMessage p now m).2.registry :=
  evolves_of_cases (handleMessage_cases p named now m)

theorem evolves_handleClose (p : Primitives) (named : Named s.registry) (now : Nat) (m : Message) :
    Evolves s.registry (s.handleClose p now m).2.registry :=
  evolves_of_cases (handleClose_cases p named now m)

/-- The answer to a message was sealed on the channel that the message was opened on. -/
theorem handleMessage_ok (named : Named s.registry) {sealed : Bytes}
    (answer : (s.handleMessage p now m).1 = .ok sealed) :
    ∃ id h c ciphertext plaintext decrypter t,
      Receives p s [] m id h c ciphertext plaintext decrypter t ∧
      s.receive p now [] m = (.ok (id, h, plaintext), t) ∧
      ∃ encrypter,
        c.pair.encrypter.encrypt p [] (s.handler plaintext) = .ok (sealed, encrypter) := by
  rw [handleMessage] at answer
  split at answer
  · cases answer
  · next id h plaintext t received =>
    obtain ⟨c, ciphertext, decrypter, receives⟩ := receives_of_ok named received
    obtain ⟨d, found, -, pair⟩ := receives.channel
    have handler : t.handler = s.handler := by rw [receives.service]
    have sealing := (step_eq (f := fun d => d.encrypt p now [] (t.handler plaintext)) found).1
    change (t.registry.encrypt p h now [] (t.handler plaintext)).1 = _ at sealing
    rw [sealing, Channel.encrypt, pair, handler] at answer
    refine ⟨id, h, c, ciphertext, plaintext, decrypter, t, receives, received, ?_⟩
    split at answer
    · next octets encrypter sealed =>
      cases answer
      exact ⟨encrypter, sealed⟩
    · cases answer

/-- A message that its channel can open is answered, if the channel can seal the answer. -/
theorem handleMessage_isOk {c : Channel} {ciphertext sealed : Bytes}
    {decrypter encrypter : CipherState} (now : Nat)
    (decoded : s.config.codec.decode s.config.idScheme m = .ok (id, ciphertext))
    (live : s.registry.live? id = some h) (found : s.registry.channel? h = some c)
    (opened : c.pair.decrypter.decrypt p [] ciphertext = .ok (plaintext, decrypter))
    (answer : c.pair.encrypter.encrypt p [] (s.handler plaintext) = .ok (sealed, encrypter)) :
    (s.handleMessage p now m).1 = .ok sealed := by
  obtain ⟨r, d, received, updates, -, pair⟩ := receive_isOk now decoded live found opened
  have sealing :=
    (step_eq (f := fun d => d.encrypt p now [] (s.handler plaintext)) updates.changed).1
  change (r.encrypt p h now [] (s.handler plaintext)).1 = _ at sealing
  rw [Channel.encrypt, pair, answer] at sealing
  rw [handleMessage, received]
  exact sealing

/-! ### Only handshakes make channels -/

theorem size_openOn (p : Primitives) (r : Registry) (h : Handle) (now : Nat)
    (ad ciphertext : Bytes) :
    (openOn p r h now ad ciphertext).2.channels.size = r.channels.size := by
  have size := r.size_step h fun c => c.decrypt p now ad ciphertext
  change (r.decrypt p h now ad ciphertext).2.channels.size = _ at size
  rw [openOn]
  split
  · next answer =>
    rw [answer] at size
    rw [size_recordFailure, size]
  · next answer =>
    rw [answer] at size
    rw [size_recordFailure, size]
  · exact size

theorem size_receive (p : Primitives) (s : Service) (now : Nat) (ad : Bytes) (m : Message) :
    (s.receive p now ad m).2.registry.channels.size = s.registry.channels.size := by
  cases decoded : s.config.codec.decode s.config.idScheme m with
  | error e => simp only [receive, resolve, decoded]
  | ok message =>
    obtain ⟨id, ciphertext⟩ := message
    have size := s.registry.size_lookup id now
    rcases looked : s.registry.lookup id now with ⟨e | h, r⟩
    · rw [looked] at size
      simpa only [receive, resolve, decoded, looked] using size
    · rw [looked] at size
      have opening := size_openOn p r h now ad ciphertext
      simp only [receive, resolve, decoded, looked]
      split
      · next answer =>
        rw [answer] at opening
        exact opening.trans size
      · next answer =>
        rw [answer] at opening
        exact opening.trans size

theorem size_handleMessage (p : Primitives) (s : Service) (now : Nat) (m : Message) :
    (s.handleMessage p now m).2.registry.channels.size = s.registry.channels.size := by
  have size := size_receive p s now [] m
  rw [handleMessage]
  split
  · next answer =>
    rw [answer] at size
    exact size
  · next answer =>
    rw [answer] at size
    exact (size_step ..).trans size

theorem size_handleClose (p : Primitives) (s : Service) (now : Nat) (m : Message) :
    (s.handleClose p now m).2.registry.channels.size = s.registry.channels.size := by
  have size := size_receive p s now closeMarker m
  rw [handleClose]
  split
  · next answer =>
    rw [answer] at size
    exact size
  · next h _ t answer =>
    rw [answer] at size
    have removed := t.registry.size_removeChannel h
    split
    · next removal =>
      rw [removal] at removed
      exact removed.trans size
    · next removal =>
      rw [removal] at removed
      exact removed.trans size

end Service

end SecureChannel
