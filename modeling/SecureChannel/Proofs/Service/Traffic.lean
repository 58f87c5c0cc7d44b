import SecureChannel.Proofs.CipherState.Records
import SecureChannel.Proofs.ClientChannel.Directions
import SecureChannel.Proofs.Service.FailClosed

/-!
# A server and its clients in a hostile network

A `Traffic` is a running server together with clients that have finished a handshake, and the two
histories that matter: the texts that clients have sealed, and the plaintexts that the application
was asked about when a message was served. The network decides everything else. It shows the server
any octets as a handshake, as a message or as a request to close, it decides what becomes of the
responses and when, it gives the clients any octets as a response or a reply, and in between
channels expire or are dropped.

A client and a channel belong together if they come out of one handshake, that is, if both have seen
the same request and the same response. Nothing here says that the client ever got the server's
response; a client that talks to somebody else is a client like any other.

`Sound` is the invariant. Whatever was opened on a channel has spent its number there, and no two
plaintexts were opened on one channel under one number.
-/

namespace SecureChannel

open Registry

/-- The server's end of a handshake, with the directions of the channel as they were at first. -/
structure ServerEnd where
  handle : Handle
  request : Bytes
  response : Bytes
  pair : CipherPair

structure ClientEnd where
  request : Bytes
  response : Bytes
  channel : ClientChannel

structure Sent where
  client : Nat
  record : Seal

/-- A plaintext that the application was asked about, and the channel on which it was opened. -/
structure Asked where
  handle : Handle
  record : Opening

/-- A server with its clients, and what has happened so far. Those who ask for handshakes are known
by their requests. -/
structure Traffic extends Running Bytes where
  servers : List ServerEnd
  clients : List ClientEnd
  sent : List Sent
  asked : List Asked

namespace Traffic

inductive Event
  | prepare (tag : Option Bytes) (request : Bytes) (draws : Nat → Nat) (fresh : Bytes32)
  /-- The server gets to know what became of one of its responses. -/
  | settle (now index : Nat) (delivery : Delivery)
  | join (serverKey : Option PublicKey) (payload : Bytes) (ephemeral : Bytes32) (response : Bytes)
      (tag : Option Bytes)
  | send (client : Nat) (ad plaintext : Bytes)
  | reply (client : Nat) (ad ciphertext : Bytes)
  | message (now : Nat) (m : Message)
  | close (now : Nat) (m : Message)
  | expire (now : Nat)
  | drop (id : ChannelId)

/-- The server's end of a handshake, if there is a channel. -/
def serverEnd : Option (Unsettled Bytes × Except ChannelError Handle) → List ServerEnd
  | some (one, .ok h) => [⟨h, one.asker, one.response.message, one.response.pair⟩]
  | _ => []

/-- What the application is asked about when a message is served, and where it comes from. -/
def askedBy (p : Primitives) (s : Service) (now : Nat) (m : Message) : List Asked :=
  (s.questions p now m).flatMap fun plaintext =>
    match (s.resolve now m).1 with
    | .error _ => []
    | .ok (_, h, ciphertext) =>
        (s.registry.channel? h).toList.map fun c =>
          ⟨h, ⟨c.pair.decrypter, [], ciphertext, plaintext⟩⟩

def setClient (w : Traffic) (index : Nat) (client : ClientEnd) (channel : ClientChannel) :
    Traffic :=
  { w with clients := w.clients.set index { client with channel := channel } }

def step (p : Primitives) (w : Traffic) : Event → Traffic
  | .prepare tag request draws fresh =>
      { w with toRunning := (w.toRunning.prepare p request tag request draws fresh).2 }
  | .settle now index delivery =>
      let (settled, running) := w.toRunning.settle now index delivery
      { w with toRunning := running, servers := w.servers ++ serverEnd settled }
  | .join serverKey payload ephemeral response tag =>
      match ClientHandshake.start p w.service.config serverKey payload ephemeral with
      | .error _ => w
      | .ok handshake =>
          match handshake.finish p (.reply response) tag with
          | .error _ => w
          | .ok channel =>
              { w with clients := w.clients ++ [⟨handshake.request, response, channel⟩] }
  | .send index ad plaintext =>
      match w.clients[index]? with
      | none => w
      | some client =>
          match client.channel.encrypt p ad plaintext with
          | .error _ => w
          | .ok (ciphertext, channel) =>
              let record : Seal := ⟨client.channel.pair.encrypter, ad, plaintext, ciphertext⟩
              { w.setClient index client channel with sent := w.sent ++ [⟨index, record⟩] }
  | .reply index ad ciphertext =>
      match w.clients[index]? with
      | none => w
      | some client =>
          match client.channel.decrypt p ad ciphertext with
          | .error _ => w
          | .ok (_, channel) => w.setClient index client channel
  | .message now m =>
      { w with
        toRunning := w.toRunning.step p (.message now m)
        asked := w.asked ++ askedBy p w.service now m }
  | .close now m => { w with toRunning := w.toRunning.step p (.close now m) }
  | .expire now => { w with toRunning := w.toRunning.step p (.expire now) }
  | .drop id =>
      { w with service := { w.service with registry := (w.service.registry.remove id).2 } }

/-- What events lead to, one after the other, from a server that has just started. -/
inductive Reachable (p : Primitives) (config : Config) (key : Option StaticKey)
    (handler : Bytes → Bytes) : Traffic → Prop
  | start {service : Service} (made : Service.new config key handler = .ok service) :
      Reachable p config key handler ⟨⟨service, []⟩, [], [], [], []⟩
  | step {w : Traffic} (reached : Reachable p config key handler w) (event : Event) :
      Reachable p config key handler (w.step p event)

/-! ### The invariant -/

variable {p : Primitives} {config : Config} {key : Option StaticKey} {handler : Bytes → Bytes}
variable {w : Traffic}

/-- The channel on which a plaintext was opened will not open its number again. -/
structure Spent (p : Primitives) (mode : NonceMode) (r : Registry) (o : Asked) : Prop where
  made : o.record.Made p
  ad : o.record.ad = []
  mode : o.record.receiver.isExplicit = mode.isExplicit
  channel : ∃ c, r.channel? o.handle = some c ∧
    o.record.receiver.Advances c.pair.decrypter ∧ c.pair.decrypter.Spent o.record.number

/-- The channel that a handshake has made is there, in the mode of the configuration. -/
structure Hosted (mode : NonceMode) (r : Registry) (e : ServerEnd) : Prop where
  mode : e.pair.decrypter.isExplicit = mode.isExplicit
  channel : ∃ c, r.channel? e.handle = some c ∧ e.pair.decrypter.Advances c.pair.decrypter

/-- A text was sealed by a client that has the same key still. -/
structure Kept (p : Primitives) (mode : NonceMode) (clients : List ClientEnd) (e : Sent) :
    Prop where
  made : e.record.Made p
  mode : e.record.sender.isExplicit = mode.isExplicit
  client : ∃ client, clients[e.client]? = some client ∧
    client.channel.pair.encrypter.key = e.record.sender.key

structure Sound (p : Primitives) (config : Config) (w : Traffic) : Prop where
  configured : w.service.config = config
  running : w.toRunning.Sound
  servers : ∀ e ∈ w.servers, Hosted config.nonceMode w.service.registry e
  owned : ∀ h c, w.service.registry.channel? h = some c → ∃ e ∈ w.servers, e.handle = h
  clients : ∀ client ∈ w.clients,
    client.channel.pair.encrypter.isExplicit = config.nonceMode.isExplicit
  sent : ∀ e ∈ w.sent, Kept p config.nonceMode w.clients e
  asked : ∀ o ∈ w.asked, Spent p config.nonceMode w.service.registry o
  /-- Nothing was opened twice on one channel under one number. -/
  distinct : w.asked.Pairwise fun one other =>
    ¬ (one.handle = other.handle ∧ one.record.number = other.record.number)

theorem sound_start {service : Service}
    (made : Service.new config key handler = .ok service) :
    Sound p config ⟨⟨service, []⟩, [], [], [], []⟩ := by
  obtain ⟨rfl, -, -⟩ := World.service_new_ok made
  refine ⟨rfl, Running.sound_start (named_new _), by simp, ?_, by simp, by simp, by simp, .nil⟩
  intro h c found
  simp [Registry.new, channel?] at found

/-! #### What the server is shown -/

theorem Spent.evolve {mode : NonceMode} {r s : Registry} {o : Asked} (spent : Spent p mode r o)
    (evolves : Evolves r s) : Spent p mode s o := by
  obtain ⟨c, found, advances, gone⟩ := spent.channel
  obtain ⟨d, found', later⟩ := evolves.channels _ c found
  exact ⟨spent.made, spent.ad, spent.mode, d, found', advances.trans later.decrypter,
    later.decrypter.spent _ gone⟩

theorem Hosted.evolve {mode : NonceMode} {r s : Registry} {e : ServerEnd}
    (hosted : Hosted mode r e) (evolves : Evolves r s) : Hosted mode s e := by
  obtain ⟨c, found, advances⟩ := hosted.channel
  obtain ⟨d, found', later⟩ := evolves.channels _ c found
  exact ⟨hosted.mode, d, found', advances.trans later.decrypter⟩

/-- A channel of a sound server has the mode of the configuration. -/
theorem Sound.mode_of_channel (sound : Sound p config w) {h : Handle} {c : Channel}
    (found : w.service.registry.channel? h = some c) :
    c.pair.decrypter.isExplicit = config.nonceMode.isExplicit := by
  obtain ⟨e, mem, rfl⟩ := sound.owned h c found
  obtain ⟨mode, d, found', advances⟩ := sound.servers e mem
  obtain rfl : c = d := Option.some.inj (found.symm.trans found')
  exact advances.mode.trans mode

/-- Everything that is known stays known while the server's registry evolves, if new channels come
with their ends. -/
theorem Sound.evolve (sound : Sound p config w) {u : Running Bytes} (ends : List ServerEnd)
    (configured : u.service.config = w.service.config) (running : u.Sound)
    (evolves : Evolves w.service.registry u.service.registry)
    (hosted : ∀ e ∈ ends, Hosted config.nonceMode u.service.registry e)
    (owned : ∀ h c, u.service.registry.channel? h = some c →
      (∃ e ∈ ends, e.handle = h) ∨ ∃ c, w.service.registry.channel? h = some c) :
    Sound p config { w with toRunning := u, servers := w.servers ++ ends } where
  configured := configured.trans sound.configured
  running := running
  servers := by
    intro e mem
    rcases List.mem_append.mp mem with old | new
    · exact (sound.servers e old).evolve evolves
    · exact hosted e new
  owned := by
    intro h c found
    rcases owned h c found with ⟨e, mem, handle⟩ | ⟨c, found⟩
    · exact ⟨e, List.mem_append_right _ mem, handle⟩
    · obtain ⟨e, mem, handle⟩ := sound.owned h c found
      exact ⟨e, List.mem_append_left _ mem, handle⟩
  clients := sound.clients
  sent := sound.sent
  asked o mem := (sound.asked o mem).evolve evolves
  distinct := sound.distinct

theorem Sound.evolve_of_size (sound : Sound p config w) {u : Running Bytes}
    (configured : u.service.config = w.service.config) (running : u.Sound)
    (evolves : Evolves w.service.registry u.service.registry)
    (size : u.service.registry.channels.size = w.service.registry.channels.size) :
    Sound p config { w with toRunning := u } := by
  have kept := sound.evolve [] configured running evolves (by simp) (by
    intro h c found
    have inside : h.index < w.service.registry.channels.size := by
      rw [← size]
      exact (Array.getElem?_eq_some_iff.mp found).1
    exact .inr ⟨_, Array.getElem?_eq_getElem inside⟩)
  simpa only [List.append_nil] using kept

/-- A call of the server that makes no channel. -/
theorem Sound.call (sound : Sound p config w) (event : Running.Event Bytes)
    (size : (w.toRunning.step p event).service.registry.channels.size =
      w.service.registry.channels.size) :
    Sound p config { w with toRunning := w.toRunning.step p event } := by
  obtain ⟨r, service⟩ := Running.step_service p w.toRunning event
  exact sound.evolve_of_size (by rw [service]) (sound.running.step p event)
    (Running.evolves_step p sound.running.named event) size

theorem Sound.prepare (sound : Sound p config w) (tag : Option Bytes) (request : Bytes)
    (draws : Nat → Nat) (fresh : Bytes32) :
    Sound p config (w.step p (.prepare tag request draws fresh)) := by
  refine sound.call (.prepare request tag request draws fresh) ?_
  rcases w.toRunning.prepare_cases p request tag request draws fresh with
    ⟨e, r, prepared, same⟩ | ⟨response, r, prepared, prepares⟩
  · rw [Running.step, prepared]
    exact congrArg Array.size same.channels
  · rw [Running.step, prepared]
    exact congrArg Array.size prepares.channels

theorem Sound.settle (sound : Sound p config w) (now index : Nat) (delivery : Delivery) :
    Sound p config (w.step p (.settle now index delivery)) := by
  rcases w.toRunning.settle_cases now index delivery with
    ⟨-, settled⟩ | ⟨one, e, r, -, settled, unreserves⟩ | ⟨one, r, inside, -, settled, opens⟩
  · have kept := sound.call (.settle now index delivery) (by rw [Running.step, settled])
    rw [Running.step, settled] at kept
    simpa only [step, settled, serverEnd, List.append_nil] using kept
  · have kept := sound.call (.settle now index delivery)
      (by rw [Running.step, settled]; exact congrArg Array.size unreserves.channels)
    rw [Running.step, settled] at kept
    simpa only [step, settled, serverEnd, List.append_nil] using kept
  · have running := sound.running.settle now index delivery
    obtain ⟨send, receive, fresh⟩ := sound.running.fresh one (List.mem_of_getElem? inside)
    simp only [step, settled, serverEnd] at running ⊢
    refine sound.evolve _ rfl running opens.confined.toEvolves ?_ ?_
    · intro e mem
      rw [List.mem_singleton.mp mem]
      refine ⟨?_, _, opens.channel?, .refl _⟩
      simp only [fresh, sound.configured]
      rfl
    · intro h c there
      rcases opens.channel?_cases there with rfl | old
      · exact .inl ⟨_, List.mem_singleton_self _, rfl⟩
      · exact .inr ⟨c, old⟩

/-- The application is asked only about what was received, and what is received spends its number
on the channel for good. -/
theorem askedBy_cases (p : Primitives) {s : Service} (named : Named s.registry) (now : Nat)
    (m : Message) :
    (askedBy p s now m = [] ∧ s.questions p now m = [] ∧
      ∀ answer, (s.receive p now [] m).1 ≠ .ok answer) ∨
    ∃ h c o, askedBy p s now m = [⟨h, o⟩] ∧ s.questions p now m = [o.plaintext] ∧
      s.registry.channel? h = some c ∧ o.Made p ∧
      (∃ id, s.config.codec.decode s.config.idScheme m = .ok (id, o.ciphertext)) ∧
      o.receiver = c.pair.decrypter ∧ o.ad = [] ∧ ¬ c.pair.decrypter.Spent o.number ∧
      ∃ d, (s.handleMessage p now m).2.registry.channel? h = some d ∧
        o.receiver.Advances d.pair.decrypter ∧ d.pair.decrypter.Spent o.number := by
  rcases answer : s.receive p now [] m with ⟨e | ⟨id, h, plaintext⟩, t⟩
  · have nothing := Service.questions_of_error answer
    exact .inl ⟨by rw [askedBy, nothing]; rfl, nothing, by simp⟩
  · obtain ⟨c, ciphertext, decrypter, receives⟩ := Service.receives_of_ok named answer
    obtain ⟨d, found, -, pair⟩ := receives.channel
    obtain ⟨d', found', later⟩ := (Service.evolves_of_receives answer found).channels h d found
    have opened := CipherState.opened_of_decrypt receives.opened
    have decrypts := later.decrypter
    rw [pair] at decrypts
    have question := Service.questions_of_ok answer
    refine .inr ⟨h, c, ⟨c.pair.decrypter, [], ciphertext, plaintext⟩, ?_, question, receives.found,
      ⟨decrypter, receives.opened⟩, ⟨id, receives.decoded⟩, rfl, rfl, opened.unspent, d', found',
      opened.advances.trans decrypts, decrypts.spent _ opened.spends⟩
    have resolved : (s.resolve now m).1 = .ok (id, h, ciphertext) := by
      simp only [Service.resolve, receives.decoded, lookup_of_live? receives.live]
    simp [askedBy, question, resolved, receives.found]

/-- The record is what the application is asked about. -/
theorem map_askedBy (p : Primitives) {s : Service} (named : Named s.registry) (now : Nat)
    (m : Message) : (askedBy p s now m).map (·.record.plaintext) = s.questions p now m := by
  rcases askedBy_cases p named now m with ⟨nothing, none, -⟩ | ⟨h, c, o, asked, question, -⟩
  · rw [nothing, none]
    rfl
  · rw [asked, question]
    rfl

theorem Sound.message (sound : Sound p config w) (now : Nat) (m : Message) :
    Sound p config (w.step p (.message now m)) := by
  have kept := sound.call (.message now m) (Service.size_handleMessage p w.service now m)
  rcases askedBy_cases p sound.running.named now m with ⟨nothing, -⟩ |
    ⟨h, c, o, asked, -, found, made, -, receiver, ad, unspent, spent⟩
  · simpa only [step, nothing, List.append_nil] using kept
  · simp only [step, asked]
    refine { kept with asked := ?_, distinct := ?_ }
    · intro other mem
      rcases List.mem_append.mp mem with old | new
      · exact kept.asked other old
      · obtain rfl := List.mem_singleton.mp new
        exact ⟨made, ad, by rw [receiver, sound.mode_of_channel found], spent⟩
    · refine List.pairwise_append.mpr ⟨sound.distinct, List.pairwise_singleton .., ?_⟩
      -- Every number that was opened on the channel before is spent there, and this one was not.
      intro other mem new mem'
      obtain rfl := List.mem_singleton.mp mem'
      rintro ⟨handle, number⟩
      obtain ⟨c', found', -, gone⟩ := (sound.asked other mem).channel
      rw [handle] at found'
      obtain rfl : c = c' := Option.some.inj (found.symm.trans found')
      rw [number] at gone
      exact unspent gone

theorem Sound.drop (sound : Sound p config w) (id : ChannelId) :
    Sound p config (w.step p (.drop id)) := by
  have evolves := (confined_remove id w.service.registry).toEvolves
  exact sound.evolve_of_size rfl
    (sound.running.called ⟨_, rfl⟩ evolves (sameReserved_remove id).keepsReserved) evolves
    (size_remove w.service.registry id)

/-! #### What the clients do -/

theorem Sound.join (sound : Sound p config w) (serverKey : Option PublicKey) (payload : Bytes)
    (ephemeral : Bytes32) (response : Bytes) (tag : Option Bytes) :
    Sound p config (w.step p (.join serverKey payload ephemeral response tag)) := by
  simp only [step]
  split
  · exact sound
  · next handshake started =>
    split
    · exact sound
    · next channel finished =>
      obtain ⟨send, receive, pair⟩ := ClientHandshake.finish_ok finished
      refine { sound with clients := ?_, sent := ?_ }
      · intro client mem
        rcases List.mem_append.mp mem with old | new
        · exact sound.clients client old
        · obtain rfl := List.mem_singleton.mp new
          simp only [pair, ClientHandshake.start_ok started, sound.configured]
          rfl
      · intro e mem
        obtain ⟨made, mode, client, found, key⟩ := sound.sent e mem
        obtain ⟨inside, -⟩ := List.getElem?_eq_some_iff.mp found
        exact ⟨made, mode, client, by rw [List.getElem?_append_left inside, found], key⟩

/-- A client whose sending direction advances has the key and the mode that it had. -/
theorem Sound.setClient (sound : Sound p config w) {index : Nat} {client : ClientEnd}
    (found : w.clients[index]? = some client) {channel : ClientChannel}
    (advances : client.channel.pair.encrypter.Advances channel.pair.encrypter) :
    Sound p config (w.setClient index client channel) := by
  refine { sound with clients := ?_, sent := ?_ }
  · intro one mem
    rcases List.mem_or_eq_of_mem_set mem with old | rfl
    · exact sound.clients one old
    · exact advances.mode.trans (sound.clients client (List.mem_of_getElem? found))
  · intro e mem
    obtain ⟨made, mode, one, found', key⟩ := sound.sent e mem
    refine ⟨made, mode, ?_⟩
    by_cases same : index = e.client
    · obtain rfl : client = one := by
        rw [same, found'] at found
        exact (Option.some.inj found).symm
      refine ⟨{ client with channel := channel }, ?_, advances.key.trans key⟩
      obtain ⟨inside, -⟩ := List.getElem?_eq_some_iff.mp found
      simp [Traffic.setClient, ← same, inside]
    · exact ⟨one, by simp [Traffic.setClient, List.getElem?_set_ne same, found'], key⟩

theorem Sound.send (sound : Sound p config w) (index : Nat) (ad plaintext : Bytes) :
    Sound p config (w.step p (.send index ad plaintext)) := by
  simp only [step]
  split
  · exact sound
  · next client found =>
    split
    · exact sound
    · next ciphertext channel sealed =>
      have sent := (ClientChannel.encrypt_ok sealed).1
      have advances := (CipherState.sealed_of_encrypt sent).advances
      have kept := sound.setClient found advances
      refine { kept with sent := ?_ }
      intro e mem
      rcases List.mem_append.mp mem with old | new
      · exact kept.sent e old
      · obtain rfl := List.mem_singleton.mp new
        refine ⟨⟨_, sent⟩, sound.clients client (List.mem_of_getElem? found),
          { client with channel := channel }, ?_, advances.key⟩
        obtain ⟨inside, -⟩ := List.getElem?_eq_some_iff.mp found
        simp [Traffic.setClient, inside]

theorem Sound.reply (sound : Sound p config w) (index : Nat) (ad ciphertext : Bytes) :
    Sound p config (w.step p (.reply index ad ciphertext)) := by
  simp only [step]
  split
  · exact sound
  · next client found =>
    split
    · exact sound
    · next plaintext channel opened =>
      refine sound.setClient found ?_
      rw [(ClientChannel.decrypt_ok opened).2]
      exact .refl _

theorem Sound.step (sound : Sound p config w) (event : Event) :
    Sound p config (w.step p event) := by
  cases event with
  | prepare tag request draws fresh => exact sound.prepare tag request draws fresh
  | settle now index delivery => exact sound.settle now index delivery
  | join serverKey payload ephemeral response tag =>
    exact sound.join serverKey payload ephemeral response tag
  | send index ad plaintext => exact sound.send index ad plaintext
  | reply index ad ciphertext => exact sound.reply index ad ciphertext
  | message now m => exact sound.message now m
  | close now m => exact sound.call (.close now m) (Service.size_handleClose p w.service now m)
  | expire now => exact sound.call (.expire now) (size_expireIdle w.service.registry now)
  | drop id => exact sound.drop id

theorem Reachable.sound (reached : Reachable p config key handler w) : Sound p config w := by
  induction reached with
  | start made => exact sound_start made
  | step _ event sound => exact sound.step event

end Traffic

end SecureChannel
