import SecureChannel.Proofs.Service.Handshake
import SecureChannel.Proofs.Service.Serving

/-!
# Honest clients are served

Whatever honest clients have done before, in whatever order, the names of their channels differ and
stand for their channels. A further client is taken in exactly if there is room for it, a name and
enough of a response for the reply; every message that a client can seal is answered with what the
application says, exactly if that can be sealed.
-/

namespace SecureChannel.World

open Registry

variable {p : Primitives} {config : Config} {key : Option Bytes32} {handler : Bytes → Bytes}
variable {w : World}

/-- Honest requests do not change what the server was started with, and keep all channels linked. -/
theorem Reachable.sound (sealing : p.Sealing) (reached : Reachable p config key handler w) :
    Sound w ∧ w.service.config = config ∧ w.service.key = key.map (StaticKey.ofPrivate p) ∧
      w.service.handler = handler ∧ config.validate = .ok () ∧
      (config.pattern.usesResponderStatic = true → key ≠ none) := by
  induction reached with
  | start made =>
    obtain ⟨rfl, valid, keyed⟩ := service_new_ok made
    refine ⟨sound_start made, rfl, rfl, rfl, valid, ?_⟩
    rintro uses rfl
    exact keyed uses rfl
  | @step w request _ honest ih =>
    obtain ⟨sound, rfl, hkey, rfl, valid, keyed⟩ := ih
    cases request with
    | connect v =>
      obtain ⟨⟨r, service⟩, -⟩ := connect_cases sealing sound hkey keyed honest
      refine ⟨sound_connect sealing sound hkey keyed honest, ?_⟩
      simp only [World.step, service]
      exact ⟨trivial, hkey, trivial, valid, keyed⟩
    | send index plaintext now =>
      obtain ⟨sound', r, service⟩ := sound_send sealing sound index plaintext now
      refine ⟨sound', ?_⟩
      simp only [World.step, service]
      exact ⟨trivial, hkey, trivial, valid, keyed⟩

/-- A handshake of an honest client succeeds exactly if the server can take the client in. -/
theorem Reachable.joins_iff (sealing : p.Sealing) (reached : Reachable p config key handler w)
    {v : Visit} (honest : w.Honest p (.connect v)) :
    (w.Admits p v ∧ ∃ client, Joins p w v client) ∨
      (¬ w.Admits p v ∧ ∀ client, (w.connect p v).1 ≠ .ok client) := by
  obtain ⟨sound, rfl, hkey, -, -, keyed⟩ := reached.sound sealing
  rcases (connect_cases sealing sound hkey keyed honest).2 with
    ⟨client, joins, admits⟩ | ⟨⟨e, failed⟩, -, -, refused⟩
  · exact .inl ⟨admits, client, joins⟩
  · refine .inr ⟨refused, ?_⟩
    intro client
    simp [failed]

/-! ### A server that has just started -/

/-- A server of the standard primitives that nobody has called yet. -/
def freshServer (config : Config) (key : Option Bytes32) (handler : Bytes → Bytes) : World :=
  ⟨⟨config, key.map (StaticKey.ofPrivate .standard), .new config.limits, handler⟩, []⟩

/-- A handshake with the given payload, under keys on which the key agreement agrees. -/
def firstVisit (tag : Option Bytes) (payload : Bytes) : Visit :=
  ⟨tag, payload, .ofNatLE 7, .ofNatLE 9, fun _ => 0, 0⟩

theorem reachable_freshServer (handler : Bytes → Bytes) (valid : config.validate = .ok ())
    (keyed : config.pattern.usesResponderStatic = true → key ≠ none) :
    Reachable .standard config key handler (freshServer config key handler) := by
  apply Reachable.start
  cases key with
  | none =>
    have unkeyed : config.pattern.usesResponderStatic = false := by
      simpa using keyed
    simp [Service.new, valid, unkeyed, bind, Except.bind, pure, Except.pure]
  | some key => simp [Service.new, valid, bind, Except.bind, pure, Except.pure]

/-- The first client of a server is an honest one if the key agreement agrees on its keys. -/
theorem honest_firstVisit (config : Config) (handler : Bytes → Bytes) (tag : Option Bytes)
    {payload : Bytes} (fits : FitsMessage payload)
    (agree : ∀ k, key = some k → Primitives.standard.Agree (.ofNatLE 7) k) :
    (freshServer config key handler).Honest .standard (.connect (firstVisit tag payload)) := by
  refine ⟨fits, Primitives.agree_standard.1, ?_, by simp [freshServer]⟩
  intro static known
  obtain ⟨k, rfl, rfl⟩ := Option.map_eq_some_iff.mp known
  exact agree k rfl

theorem room_freshServer (positive : 1 ≤ config.maxSessions) :
    (freshServer config key handler).service.registry.isFull = false := by
  simp [freshServer, isFull, Registry.new, Config.limits]
  omega

/-- A fresh server without a key refuses what it cannot admit. -/
theorem refused_freshServer {v : Visit} (valid : config.validate = .ok ())
    (pattern : config.pattern = .nn)
    (honest : (freshServer config none handler).Honest .standard (.connect v))
    (refused : ¬ (freshServer config none handler).Admits .standard v) (client : ClientChannel) :
    ((freshServer config none handler).connect .standard v).1 ≠ .ok client := by
  have keyed : config.pattern.usesResponderStatic = true → (none : Option Bytes32) ≠ none := by
    rw [pattern]
    decide
  rcases (reachable_freshServer handler valid keyed).joins_iff Primitives.standard_sealing honest
    with ⟨admits, -⟩ | ⟨-, failed⟩
  · exact absurd admits refused
  · exact failed client

/-- What the first client has after a handshake that the server can take in. -/
theorem joins_freshServer {v : Visit} (valid : config.validate = .ok ())
    (keyed : config.pattern.usesResponderStatic = true → key ≠ none)
    (honest : (freshServer config key handler).Honest .standard (.connect v))
    (admits : (freshServer config key handler).Admits .standard v) (plaintext : Bytes)
    (short : ¬ CipherState.tooLong plaintext) :
    ∃ client sealed client', Joins .standard (freshServer config key handler) v client ∧
      client.encrypt .standard [] plaintext = .ok (sealed, client') := by
  rcases (reachable_freshServer handler valid keyed).joins_iff Primitives.standard_sealing honest
    with ⟨-, client, joins⟩ | ⟨refused, -⟩
  · obtain ⟨up, down, pair, -⟩ := joins.opens
    have unused : client.pair.encrypter.nonce ≠ CipherState.lastNonce := by
      rw [pair]
      exact (by decide : (0 : UInt64) ≠ CipherState.lastNonce)
    obtain ⟨sealed, next, sent⟩ := CipherState.encrypt_isOk .standard [] unused short
    exact ⟨client, sealed, { client with pair := { client.pair with encrypter := next } }, joins,
      by rw [ClientChannel.encrypt, sent]⟩
  · exact absurd admits refused

/-! ### Every run of honest requests -/

/-- A server serves its honest clients, however their requests are interleaved. -/
theorem honest_clients_served (sealing : p.Sealing) (reached : Reachable p config key handler w) :
    (w.clients.Pairwise fun one other => one.id ≠ other.id) ∧
    (∀ client ∈ w.clients, ∃ h, ∀ now, (w.service.registry.lookup client.id now).1 = .ok h) ∧
    (∀ v, w.Honest p (.connect v) →
      ((∃ client, (w.connect p v).1 = .ok client) ↔ w.Admits p v) ∧
      ∀ client, (w.connect p v).1 = .ok client →
        client.reply = (if v.payload = [] then [] else handler v.payload) ∧
        (w.connect p v).2.clients = w.clients ++ [client] ∧
        (∀ other ∈ w.clients, other.id ≠ client.id) ∧
        ∃ h, ∀ now, ((w.connect p v).2.service.registry.lookup client.id now).1 = .ok h) ∧
    ∀ index client plaintext sealed client' now, w.clients[index]? = some client →
      client.encrypt p [] plaintext = .ok (sealed, client') →
        ((w.send p index plaintext now).1 = .ok (handler plaintext) ↔
          ¬ CipherState.tooLong (handler plaintext)) := by
  obtain ⟨sound, rfl, hkey, rfl, -, keyed⟩ := reached.sound sealing
  refine ⟨sound.distinct, ?_, ?_, ?_⟩
  · intro client mem
    obtain ⟨h, channel, live, -, -⟩ := sound.linked client mem
    exact ⟨h, fun now => congrArg Prod.fst (lookup_of_live? live now)⟩
  · intro v honest
    rcases reached.joins_iff sealing honest with ⟨admits, joined, joins⟩ | ⟨refused, failed⟩
    · refine ⟨iff_of_true ⟨joined, joins.answer⟩ admits, ?_⟩
      intro client answer
      obtain rfl : joined = client := Except.ok.inj (joins.answer.symm.trans answer)
      obtain ⟨up, down, -, opens⟩ := joins.opens
      refine ⟨?_, joins.clients, sound.free_iff.mp joins.free, _,
        fun now => congrArg Prod.fst (lookup_of_live? opens.live? now)⟩
      rw [joins.reply, Service.earlyReply]
      simp only [List.isEmpty_iff]
    · refine ⟨iff_of_false ?_ refused, ?_⟩
      · rintro ⟨client, answer⟩
        exact failed client answer
      · intro client answer
        exact absurd answer (failed client)
  · intro index client plaintext sealed client' now inside sent
    exact (send_sealed sealing sound inside sent now).2.2

/-- A configuration with all that the default one does without. -/
def pinned : Config :=
  { Config.default with pattern := .nk, idScheme := .binding, nonceMode := .explicit 64 }

/-- The first client of a server that reverses what it is sent. -/
theorem first_client_served :
    ∃ client,
      ((freshServer pinned (some (.ofNatLE 11)) List.reverse).connect .standard
        (firstVisit none [1, 2])).1 = .ok client ∧
      client.reply = [2, 1] ∧
      (((freshServer pinned (some (.ofNatLE 11)) List.reverse).connect .standard
        (firstVisit none [1, 2])).2.send .standard 0 [3, 4] 0).1 = .ok [4, 3] := by
  have payload : FitsMessage [1, 2] := by decide
  have agree : ∀ k, some (.ofNatLE 11) = some k → Primitives.standard.Agree (.ofNatLE 7) k := by
    rintro k ⟨⟩
    exact Primitives.agree_standard.2
  have honest := honest_firstVisit pinned List.reverse none payload agree
  have valid : pinned.validate = .ok () := rfl
  have keyed : pinned.pattern.usesResponderStatic = true →
      (some (.ofNatLE 11) : Option Bytes32) ≠ none := by
    simp
  have reached := reachable_freshServer List.reverse valid keyed
  have fits : FitsResponse .binding [2, 1] := by
    rw [FitsResponse]
    decide
  have admits : (freshServer pinned (some (.ofNatLE 11)) List.reverse).Admits .standard
      (firstVisit none [1, 2]) :=
    ⟨room_freshServer (by decide), fits, fun _ _ _ mem => absurd mem List.not_mem_nil⟩
  obtain ⟨client, sealed, client', joins, sent⟩ :=
    joins_freshServer valid keyed honest admits [3, 4] (by decide)
  obtain ⟨-, -, connects, -⟩ := honest_clients_served Primitives.standard_sealing reached
  obtain ⟨-, outcome⟩ := connects _ honest
  obtain ⟨reply, clients, -⟩ := outcome client joins.answer
  have inside : ((freshServer pinned (some (.ofNatLE 11)) List.reverse).connect .standard
      (firstVisit none [1, 2])).2.clients[0]? = some client := by
    rw [clients]
    rfl
  obtain ⟨-, -, -, sends⟩ :=
    honest_clients_served Primitives.standard_sealing (reached.connect honest)
  have answered := (sends 0 client [3, 4] sealed client' 0 inside sent).mpr (by decide)
  exact ⟨client, joins.answer, reply, answered⟩

/-! ### The conditions are needed -/

def longPayload : Bytes := List.replicate 65487 0

/-- An answer that is beyond the cipher's block counter. -/
def longAnswer : Bytes := List.replicate (64 * CipherState.maxBlocks) 0

theorem tooLong_longAnswer : CipherState.tooLong longAnswer := by
  have blocks : longAnswer.length / 64 = CipherState.maxBlocks := by
    rw [longAnswer, List.length_replicate]
    exact Nat.mul_div_cancel_left _ (by decide)
  exact Nat.le_of_eq blocks.symm

/-- A reply as long as the longest payload leaves no room for the name in front of it. -/
theorem refused_longPayload :
    (freshServer .default none id).Honest .standard (.connect (firstVisit none longPayload)) ∧
    (freshServer .default none id).HasName .standard (firstVisit none longPayload) ∧
    ∀ client, ((freshServer .default none id).connect .standard
      (firstVisit none longPayload)).1 ≠ .ok client := by
  have length : longPayload.length = 65487 := List.length_replicate
  have fits : FitsMessage longPayload := by
    rw [FitsMessage, length]
    decide
  have honest : (freshServer .default none id).Honest .standard
      (.connect (firstVisit none longPayload)) := honest_firstVisit .default id none fits (by simp)
  have hasName : (freshServer .default none id).HasName .standard (firstVisit none longPayload) :=
    ⟨0, by decide, _, rfl, by simp [freshServer]⟩
  refine ⟨honest, hasName, refused_freshServer rfl rfl honest ?_⟩
  intro admits
  have echo : (freshServer .default none id).service.earlyReply longPayload = longPayload := by
    rw [Service.earlyReply, if_neg]
    · rfl
    · rw [List.isEmpty_iff_length_eq_zero, length]
      decide
  have room : FitsResponse .random16 longPayload := echo ▸ admits.fits
  rw [FitsResponse, length] at room
  exact absurd room (by decide)

theorem refused_emptyTag :
    (freshServer (.peerNamed .routing) none id).Honest .standard
      (.connect (firstVisit (some []) [])) ∧
    ∀ client, ((freshServer (.peerNamed .routing) none id).connect .standard
      (firstVisit (some []) [])).1 ≠ .ok client := by
  have fits : FitsMessage [] := by decide
  have honest : (freshServer (.peerNamed .routing) none id).Honest .standard
      (.connect (firstVisit (some []) [])) :=
    honest_firstVisit (.peerNamed .routing) id (some []) fits (by simp)
  refine ⟨honest, refused_freshServer rfl rfl honest ?_⟩
  intro admits
  obtain ⟨octets, tag, nonempty, -⟩ := admits.named
  obtain rfl : [] = octets := Option.some.inj tag
  exact absurd nonempty (by decide)

theorem unanswered_longAnswer :
    ∃ w client sealed client', Reachable .standard .default none (fun _ => longAnswer) w ∧
      w.clients[0]? = some client ∧ client.encrypt .standard [] [] = .ok (sealed, client') ∧
      (w.send .standard 0 [] 0).1 ≠ .ok longAnswer := by
  have payload : FitsMessage [] := by decide
  have honest : (freshServer .default none fun _ => longAnswer).Honest .standard
      (.connect (firstVisit none [])) :=
    honest_firstVisit .default (fun _ => longAnswer) none payload (by simp)
  have reached : Reachable .standard .default none (fun _ => longAnswer)
      (freshServer .default none fun _ => longAnswer) :=
    reachable_freshServer (fun _ => longAnswer) rfl (by decide)
  have fits : FitsResponse .random16 [] := by
    rw [FitsResponse]
    decide
  have admits : (freshServer .default none fun _ => longAnswer).Admits .standard
      (firstVisit none []) :=
    ⟨room_freshServer (by decide), fits, ⟨0, by decide, _, rfl, by simp [freshServer]⟩⟩
  obtain ⟨client, sealed, client', joins, sent⟩ :=
    joins_freshServer rfl (by decide) honest admits [] (by decide)
  have inside : ((freshServer .default none fun _ => longAnswer).connect .standard
      (firstVisit none [])).2.clients[0]? = some client := by
    rw [joins.clients]
    rfl
  refine ⟨_, client, sealed, client', reached.connect honest, inside, sent, ?_⟩
  obtain ⟨sound, -, -, handler, -⟩ := (reached.connect honest).sound Primitives.standard_sealing
  have answered := (send_sealed Primitives.standard_sealing sound inside sent 0).2.2
  rw [handler] at answered
  intro answer
  exact answered.mp answer tooLong_longAnswer

/-- Each of the three conditions is needed: an honest client may bring a payload that leaves no room
for the name in front of the reply, or an empty tag, and an answer may be too long to be sealed. -/
theorem unserved_honest_clients :
    (∃ w v, Reachable .standard .default none id w ∧ w.Honest .standard (.connect v) ∧
      w.service.registry.isFull = false ∧ w.HasName .standard v ∧
      ∀ client, (w.connect .standard v).1 ≠ .ok client) ∧
    (∃ w v, Reachable .standard (.peerNamed .routing) none id w ∧ w.Honest .standard (.connect v) ∧
      v.tag = some [] ∧ w.service.registry.isFull = false ∧
      ∀ client, (w.connect .standard v).1 ≠ .ok client) ∧
    ∃ handler w client sealed client', Reachable .standard .default none handler w ∧
      w.clients[0]? = some client ∧ client.encrypt .standard [] [] = .ok (sealed, client') ∧
      (w.send .standard 0 [] 0).1 ≠ .ok (handler []) := by
  refine ⟨?_, ?_, ⟨_, unanswered_longAnswer⟩⟩
  · obtain ⟨honest, hasName, refused⟩ := refused_longPayload
    exact ⟨_, _, reachable_freshServer id rfl (by decide), honest, room_freshServer (by decide),
      hasName, refused⟩
  · obtain ⟨honest, refused⟩ := refused_emptyTag
    exact ⟨_, _, reachable_freshServer id rfl (by decide), honest, rfl,
      room_freshServer (by decide), refused⟩

end SecureChannel.World
