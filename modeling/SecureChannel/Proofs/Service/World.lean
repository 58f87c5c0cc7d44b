import SecureChannel.Proofs.CipherState.InStep
import SecureChannel.Proofs.Codec.Names
import SecureChannel.Proofs.PendingHandshake.Agreement
import SecureChannel.Proofs.Registry.Channels
import SecureChannel.Service

/-!
# A server and its honest clients

A `World` is one server together with the channels that clients have established with it. Two things
happen in it: a client shakes hands with the server, and a client sends a message and opens the
answer. Each is one whole exchange, delivered unmodified, so a run is a list of requests in any
order.

`Honest` is what makes a request one of an honest client: its keys are good for a key agreement, its
payload fits a message, and under the transport scheme no other client has its tag. It does not say
that the request succeeds; the server may be full, and the application's answers may be too long.

`Sound` is the invariant: every client's name stands for a channel that is linked with the client's,
message by message, and no name stands for anything else.
-/

namespace SecureChannel

structure World where
  service : Service
  clients : List ClientChannel

/-- What a handshake starts with: what the client brings, and what the server draws. -/
structure Visit where
  tag : Option Bytes
  payload : Bytes
  ephemeral : Bytes32
  fresh : Bytes32
  draws : Nat → Nat
  now : Nat

namespace World

inductive Request
  | connect (visit : Visit)
  | send (index : Nat) (plaintext : Bytes) (now : Nat)

variable {p : Primitives} {w : World}

/-- What a transport makes of the server's answer: an error arrives as an outcome. -/
def exchange : Except ChannelError Bytes → Exchange
  | .ok message => .reply message
  | .error e => .failed (.rejected e.outcome)

/-- A client shakes hands with the server, whose static key it pins. -/
def connect (p : Primitives) (w : World) (v : Visit) : Except ChannelError ClientChannel × World :=
  match ClientHandshake.start p w.service.config w.service.publicKey v.payload v.ephemeral with
  | .error e => (.error e, w)
  | .ok handshake =>
      let (answer, service) :=
        w.service.handshakeReply p v.now v.tag handshake.request v.draws v.fresh
      match handshake.finish p (exchange answer) v.tag with
      | .error e => (.error e, ⟨service, w.clients⟩)
      | .ok client => (.ok client, ⟨service, w.clients ++ [client]⟩)

def send (p : Primitives) (w : World) (index : Nat) (plaintext : Bytes) (now : Nat) :
    Except ChannelError Bytes × World :=
  match w.clients[index]? with
  | none => (.error (.internal "no such channel"), w)
  | some client =>
      match client.encrypt p [] plaintext with
      | .error e => (.error e, w)
      | .ok (ciphertext, client) =>
          let (answer, service) :=
            w.service.handleMessage p now (w.service.config.codec.encode client.id ciphertext)
          match answer with
          | .error e => (.error e, ⟨service, w.clients.set index client⟩)
          | .ok sealed =>
              match client.decrypt p [] sealed with
              | .error e => (.error e, ⟨service, w.clients.set index client⟩)
              | .ok (reply, client) => (.ok reply, ⟨service, w.clients.set index client⟩)

def step (p : Primitives) (w : World) : Request → World
  | .connect v => (w.connect p v).2
  | .send index plaintext now => (w.send p index plaintext now).2

def Honest (p : Primitives) (w : World) : Request → Prop
  | .connect v =>
      FitsMessage v.payload ∧ p.Agree v.ephemeral v.fresh ∧
        (∀ key, w.service.key = some key → p.Agree v.ephemeral key.privateKey) ∧
        (w.service.config.idScheme = .transport → ∀ tag, v.tag = some tag →
          ∀ client ∈ w.clients, client.id ≠ .transport tag)
  | .send _ _ _ => True

/-- The worlds that honest requests lead to, one after the other, from a server that has just
started. -/
inductive Reachable (p : Primitives) (config : Config) (key : Option Bytes32)
    (handler : Bytes → Bytes) : World → Prop
  | start {service : Service}
      (made : Service.new config (key.map (StaticKey.ofPrivate p)) handler = .ok service) :
      Reachable p config key handler ⟨service, []⟩
  | step {w : World} {request : Request} (reached : Reachable p config key handler w)
      (honest : w.Honest p request) : Reachable p config key handler (w.step p request)

theorem Reachable.connect {config : Config} {key : Option Bytes32} {handler : Bytes → Bytes}
    (reached : Reachable p config key handler w) {v : Visit} (honest : w.Honest p (.connect v)) :
    Reachable p config key handler (w.connect p v).2 :=
  reached.step honest

/-! ### The invariant -/

/-- The two ends of one channel. The server never has sealed more answers than the client has sealed
messages, so it does not run out of nonces first. -/
structure Linked (client : ClientChannel) (channel : Channel) : Prop where
  name : channel.id = client.id
  outbound : CipherState.InStep client.pair.encrypter channel.pair.decrypter
  inbound : CipherState.InStep channel.pair.encrypter client.pair.decrypter
  counted : channel.pair.encrypter.nonce ≤ client.pair.encrypter.nonce

/-- Every client's name stands for the other end of its channel, and nothing else is in use. -/
structure Sound (w : World) : Prop where
  distinct : w.clients.Pairwise fun one other => one.id ≠ other.id
  named : ∀ client ∈ w.clients,
    client.id.Admissible ∧ client.id.scheme = w.service.config.idScheme
  linked : ∀ client ∈ w.clients, ∃ h channel, w.service.registry.live? client.id = some h ∧
    w.service.registry.channel? h = some channel ∧ Linked client channel
  owned : ∀ id : ChannelId, w.service.registry.slots[id]? ≠ none →
    ∃ client ∈ w.clients, client.id = id

theorem Sound.free_iff (sound : Sound w) {id : ChannelId} :
    w.service.registry.slots[id]? = none ↔ ∀ client ∈ w.clients, client.id ≠ id := by
  constructor
  · rintro free client mem rfl
    obtain ⟨h, channel, live, -, -⟩ := sound.linked client mem
    rw [Registry.live?_eq_none_of_free free] at live
    cases live
  · intro other
    cases slot : w.service.registry.slots[id]? with
    | none => rfl
    | some _ =>
      obtain ⟨client, mem, same⟩ := sound.owned id (by simp [slot])
      exact absurd same (other client mem)

theorem service_new_ok {config : Config} {key : Option StaticKey} {handler : Bytes → Bytes}
    {service : Service} (made : Service.new config key handler = .ok service) :
    service = ⟨config, key, .new config.limits, handler⟩ ∧ config.validate = .ok () ∧
      (config.pattern.usesResponderStatic = true → key ≠ none) := by
  rw [Service.new] at made
  obtain ⟨_, valid, made⟩ := bind_eq_ok_iff.mp made
  split at made
  · cases made
  · next keyed =>
    obtain rfl := Except.ok.inj made
    exact ⟨rfl, valid, fun uses missing => keyed ⟨uses, missing⟩⟩

theorem sound_start {config : Config} {key : Option StaticKey} {handler : Bytes → Bytes}
    {service : Service} (made : Service.new config key handler = .ok service) :
    Sound ⟨service, []⟩ := by
  obtain ⟨rfl, -, -⟩ := service_new_ok made
  exact ⟨.nil, by simp, by simp, by simp⟩

end World

end SecureChannel
