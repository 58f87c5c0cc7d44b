import SecureChannel.Proofs.ClientChannel.Directions
import SecureChannel.Proofs.Codec.RoundTrip
import SecureChannel.Proofs.Service.Joining
import SecureChannel.Proofs.Service.Locality

/-!
# An honest client is served

The server opens what the client has sealed, because both are in step, and the client opens what the
server seals. After the exchange both ends of the channel are linked again, and no other channel was
touched. That the server can seal its answer is a matter of the answer's length alone: it has never
sealed more than the client.
-/

namespace SecureChannel

open Registry

variable {p : Primitives} {now : Nat} {id : ChannelId} {h : Handle} {channel : Channel}
variable {ciphertext plaintext : Bytes} {decrypter : CipherState}

/-- The fate of an answer that is to be sealed. -/
structure Answered (p : Primitives) (before : CipherPair) (plaintext : Bytes)
    (answer : Except ChannelError Bytes) (after : CipherPair) : Prop where
  decrypter : after.decrypter = before.decrypter
  encrypter :
    (∃ sealed, before.encrypter.encrypt p [] plaintext = .ok (sealed, after.encrypter) ∧
      answer = .ok sealed) ∨
    (∃ e, before.encrypter.encrypt p [] plaintext = .error e ∧ answer = .error (.ofCipher e) ∧
      after.encrypter = before.encrypter)

theorem Answered.length_le {before after : CipherPair} {sealed : Bytes} (sealing : p.Sealing)
    (answered : Answered p before plaintext (.ok sealed) after) :
    sealed.length ≤ plaintext.length + CipherState.nonceLength + CipherState.tagLength := by
  rcases answered.encrypter with ⟨octets, sent, answer⟩ | ⟨e, -, answer, -⟩
  · obtain rfl : sealed = octets := Except.ok.inj answer
    exact CipherState.length_of_encrypt sealing sent
  · cases answer

/-- A channel that is to seal an answer seals it or keeps its state. -/
theorem Registry.encrypt_answered (p : Primitives) {r : Registry}
    (found : r.channel? h = some channel) (now : Nat) (plaintext : Bytes) :
    ∃ channel', r.Updates h channel' (r.encrypt p h now [] plaintext).2 ∧ channel'.id = channel.id ∧
      Answered p channel.pair plaintext (r.encrypt p h now [] plaintext).1 channel'.pair := by
  obtain ⟨answer, updates⟩ := step_eq (f := fun c => c.encrypt p now [] plaintext) found
  refine ⟨_, updates, Channel.id_encrypt .., ?_⟩
  change (r.encrypt p h now [] plaintext).1 = _ at answer
  rw [answer, Channel.encrypt]
  cases encrypted : channel.pair.encrypter.encrypt p [] plaintext with
  | error e => exact ⟨rfl, .inr ⟨e, encrypted, rfl, rfl⟩⟩
  | ok sealed => exact ⟨rfl, .inl ⟨sealed.1, encrypted, rfl⟩⟩

/-- A message that a channel can open is handed to the application, and its answer is sealed on the
same channel. No other channel is touched. -/
theorem Service.handleMessage_answered {service : Service} {m : Message} (now : Nat)
    (decoded : service.config.codec.decode service.config.idScheme m = .ok (id, ciphertext))
    (live : service.registry.live? id = some h) (found : service.registry.channel? h = some channel)
    (opened : channel.pair.decrypter.decrypt p [] ciphertext = .ok (plaintext, decrypter)) :
    ∃ channel' s, service.registry.Updates h channel' s ∧ channel'.id = channel.id ∧
      (service.handleMessage p now m).2 = { service with registry := s } ∧
      Answered p { channel.pair with decrypter := decrypter } (service.handler plaintext)
        (service.handleMessage p now m).1 channel'.pair := by
  obtain ⟨r, after, received, read, name, pair⟩ :=
    Service.receive_isOk now decoded live found opened
  obtain ⟨after', sent, name', answered⟩ :=
    encrypt_answered p read.changed now (service.handler plaintext)
  rw [pair] at answered
  refine ⟨after', _, read.trans sent, name'.trans name, ?_, ?_⟩
  · rw [Service.handleMessage, received]
  · rw [Service.handleMessage, received]
    exact answered

namespace World

variable {w : World} {index : Nat} {client client' : ClientChannel} {channel' : Channel}
variable {s : Registry}

/-- After an exchange on one channel all clients are linked again. -/
theorem Sound.update (sound : Sound w) (inside : w.clients[index]? = some client)
    (live : w.service.registry.live? client.id = some h)
    (found : w.service.registry.channel? h = some channel) (name : channel.id = client.id)
    (updates : w.service.registry.Updates h channel' s) (linked : Linked client' channel')
    (same : client'.id = client.id) :
    Sound ⟨{ w.service with registry := s }, w.clients.set index client'⟩ := by
  have links := sound.links.update inside live found name updates linked same
  refine ⟨links.distinct, ?_, links.linked, ?_⟩
  · intro one mem
    rcases sound.links.mem_set inside mem with rfl | ⟨mem, -⟩
    · rw [same]
      exact sound.named client (List.mem_of_getElem? inside)
    · exact sound.named one mem
  · intro id used
    change s.slots[id]? ≠ none at used
    rw [updates.slots] at used
    obtain ⟨one, mem, named⟩ := sound.owned id used
    have : id ∈ (w.clients.set index client').map ClientChannel.id := by
      rw [map_id_set inside same]
      exact List.mem_map.mpr ⟨one, mem, named⟩
    exact List.mem_map.mp this

/-- The two ends of a channel after a message and the server's answer. The client can open the
answer; without one, the application's was too long. -/
theorem Linked.exchange (sealing : p.Sealing) (linked : Linked client channel)
    {encrypter : CipherState}
    (sent : client.pair.encrypter.encrypt p [] plaintext = .ok (ciphertext, encrypter))
    (outbound : CipherState.InStep encrypter decrypter) {text : Bytes} {after : Channel}
    {answer : Except ChannelError Bytes} (name : after.id = channel.id)
    (answered : Answered p { channel.pair with decrypter := decrypter } text answer after.pair) :
    (∃ sealed decrypter', answer = .ok sealed ∧ ¬ CipherState.tooLong text ∧
      client.pair.decrypter.decrypt p [] sealed = .ok (text, decrypter') ∧
      Linked { client with pair := ⟨encrypter, decrypter'⟩ } after) ∨
    (∃ e, answer = .error e ∧ CipherState.tooLong text ∧
      Linked { client with pair := { client.pair with encrypter := encrypter } } after) := by
  obtain ⟨below, -, -, moved⟩ := CipherState.encrypt_ok_iff.mp sent
  -- The server has sealed no more answers than the client has sealed messages.
  have behind := CipherState.ne_lastNonce_of_le linked.counted below
  have counted := UInt64.le_iff_toNat_le.mp linked.counted
  have mine : encrypter.nonce.toNat = client.pair.encrypter.nonce.toNat + 1 := by
    rw [← moved]
    exact CipherState.toNat_succ_nonce below
  have received : after.pair.decrypter = decrypter := answered.decrypter
  rw [← received] at outbound
  rcases answered.encrypter with ⟨sealed, replied, rfl⟩ | ⟨e, failed, rfl, unchanged⟩
  · obtain ⟨-, short, -, moved'⟩ := CipherState.encrypt_ok_iff.mp replied
    have theirs : after.pair.encrypter.nonce.toNat = channel.pair.encrypter.nonce.toNat + 1 := by
      rw [← moved']
      exact CipherState.toNat_succ_nonce behind
    obtain ⟨decrypter', read, inbound⟩ := linked.inbound.deliver sealing replied
    have counted' : after.pair.encrypter.nonce ≤ encrypter.nonce := by
      rw [UInt64.le_iff_toNat_le]
      omega
    exact .inl ⟨sealed, decrypter', rfl, short, read, name.trans linked.name, outbound, inbound,
      counted'⟩
  · have same : after.pair.encrypter = channel.pair.encrypter := unchanged
    have long : CipherState.tooLong text := by
      apply Classical.byContradiction
      intro short
      obtain ⟨sealed, next, replied⟩ := CipherState.encrypt_isOk p [] behind short
      rw [failed] at replied
      cases replied
    have counted' : after.pair.encrypter.nonce ≤ encrypter.nonce := by
      rw [same, UInt64.le_iff_toNat_le]
      omega
    exact .inr ⟨_, rfl, long, name.trans linked.name, outbound, same.symm ▸ linked.inbound,
      counted'⟩

/-- Under explicit nonces the two ends of a channel are linked even if the message was lost. -/
theorem Linked.lost (linked : Linked client channel) {encrypter : CipherState}
    (explicit : client.pair.encrypter.isExplicit = true)
    (sent : client.pair.encrypter.encrypt p [] plaintext = .ok (ciphertext, encrypter)) :
    Linked { client with pair := { client.pair with encrypter := encrypter } } channel := by
  obtain ⟨below, -, -, moved⟩ := CipherState.encrypt_ok_iff.mp sent
  refine ⟨linked.name, linked.outbound.skip explicit sent, linked.inbound, ?_⟩
  have counted := UInt64.le_iff_toNat_le.mp linked.counted
  rw [← moved, UInt64.le_iff_toNat_le, CipherState.toNat_succ_nonce below]
  omega

theorem Linked.unanswered (linked : Linked client channel) {encrypter : CipherState}
    (explicit : client.pair.decrypter.isExplicit = true)
    (sent : client.pair.encrypter.encrypt p [] plaintext = .ok (ciphertext, encrypter))
    (outbound : CipherState.InStep encrypter decrypter) {text : Bytes} {after : Channel}
    {answer : Except ChannelError Bytes} (name : after.id = channel.id)
    (answered : Answered p { channel.pair with decrypter := decrypter } text answer after.pair) :
    Linked { client with pair := { client.pair with encrypter := encrypter } } after := by
  obtain ⟨below, -, -, moved⟩ := CipherState.encrypt_ok_iff.mp sent
  have behind := CipherState.ne_lastNonce_of_le linked.counted below
  have counted := UInt64.le_iff_toNat_le.mp linked.counted
  have received : after.pair.decrypter = decrypter := answered.decrypter
  rw [← received] at outbound
  rw [linked.inbound.isExplicit_eq] at explicit
  rcases answered.encrypter with ⟨sealed, replied, -⟩ | ⟨e, -, -, unchanged⟩
  · obtain ⟨-, -, -, moved'⟩ := CipherState.encrypt_ok_iff.mp replied
    refine ⟨name.trans linked.name, outbound, linked.inbound.skip explicit replied, ?_⟩
    rw [← moved, ← moved', UInt64.le_iff_toNat_le, CipherState.toNat_succ_nonce below,
      CipherState.toNat_succ_nonce behind]
    exact Nat.succ_le_succ counted
  · have same : after.pair.encrypter = channel.pair.encrypter := unchanged
    refine ⟨name.trans linked.name, outbound, same ▸ linked.inbound, ?_⟩
    rw [same, ← moved, UInt64.le_iff_toNat_le, CipherState.toNat_succ_nonce below]
    omega

/-- What comes of a message that a client has sealed: both ends of its channel are linked again, and
the client gets the application's answer exactly if that is not too long to be sealed. -/
theorem send_sealed (sealing : p.Sealing) (sound : Sound w)
    (inside : w.clients[index]? = some client) {sealed : Bytes}
    (sent : client.encrypt p [] plaintext = .ok (sealed, client')) (now : Nat) :
    Sound (w.send p index plaintext now).2 ∧
      (∃ r, (w.send p index plaintext now).2.service =
        ⟨w.service.config, w.service.key, r, w.service.handler⟩) ∧
      ((w.send p index plaintext now).1 = .ok (w.service.handler plaintext) ↔
        ¬ CipherState.tooLong (w.service.handler plaintext)) := by
  have mem := List.mem_of_getElem? inside
  obtain ⟨h, channel, live, found, linked⟩ := sound.linked client mem
  obtain ⟨admissible, scheme⟩ := sound.named client mem
  obtain ⟨encrypter, out, rfl⟩ := ClientChannel.encrypt_eq sent
  obtain ⟨decrypter, opened, outbound⟩ := linked.outbound.deliver sealing out
  have decoded := w.service.config.codec.decode_encode admissible sealed
  rw [scheme] at decoded
  obtain ⟨after, s, updates, name, served, answered⟩ :=
    Service.handleMessage_answered now decoded live found opened
  rcases linked.exchange sealing out outbound name answered with
    ⟨reply, decrypter', answer, short, read, linked'⟩ | ⟨e, answer, long, linked'⟩
  · have handled : w.service.handleMessage p now
        (w.service.config.codec.encode client.id sealed) =
          (.ok reply, { w.service with registry := s }) := Prod.ext answer served
    have result : w.send p index plaintext now = (.ok (w.service.handler plaintext),
        ⟨{ w.service with registry := s },
          w.clients.set index { client with pair := ⟨encrypter, decrypter'⟩ }⟩) := by
      simp only [send, inside, sent, handled, ClientChannel.decrypt, read]
    rw [result]
    exact ⟨sound.update inside live found linked.name updates linked' rfl, ⟨s, rfl⟩,
      iff_of_true rfl short⟩
  · have handled : w.service.handleMessage p now
        (w.service.config.codec.encode client.id sealed) =
          (.error e, { w.service with registry := s }) := Prod.ext answer served
    have result : w.send p index plaintext now = (.error e, ⟨{ w.service with registry := s },
        w.clients.set index
          { client with pair := { client.pair with encrypter := encrypter } }⟩) := by
      simp only [send, inside, sent, handled]
    rw [result]
    exact ⟨sound.update inside live found linked.name updates linked' rfl, ⟨s, rfl⟩,
      iff_of_false (by simp) (not_not_intro long)⟩

theorem sound_send (sealing : p.Sealing) (sound : Sound w) (index : Nat) (plaintext : Bytes)
    (now : Nat) :
    Sound (w.send p index plaintext now).2 ∧
      ∃ r, (w.send p index plaintext now).2.service =
        ⟨w.service.config, w.service.key, r, w.service.handler⟩ := by
  cases inside : w.clients[index]? with
  | none =>
    simp only [send, inside]
    exact ⟨sound, _, rfl⟩
  | some client =>
    cases sent : client.encrypt p [] plaintext with
    | error e =>
      simp only [send, inside, sent]
      exact ⟨sound, _, rfl⟩
    | ok step =>
      obtain ⟨kept, service, -⟩ := send_sealed sealing sound inside sent now
      exact ⟨kept, service⟩

end World

end SecureChannel
