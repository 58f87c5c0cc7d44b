import SecureChannel.ClientChannel
import SecureChannel.Proofs.CipherState.InStep
import SecureChannel.Proofs.Noise.Outcome

/-!
# The directions of a client

Whatever came back in its handshake, a client that has finished it has two fresh directions in the
mode of its configuration. From then on sealing moves the one and opening moves the other.
-/

namespace SecureChannel

variable {p : Primitives} {config : Config} {payload ad plaintext ciphertext : Bytes}
variable {channel channel' : ClientChannel}

namespace ClientHandshake

variable {handshake : ClientHandshake}

theorem start_ok {serverKey : Option PublicKey} {ephemeral : Bytes32}
    (started : start p config serverKey payload ephemeral = .ok handshake) :
    handshake.initiator.mode = config.nonceMode := by
  rw [start] at started
  split at started
  · next written =>
    cases started
    obtain ⟨initiator, made, written⟩ := bind_eq_ok_iff.mp written
    have kept := congrArg Noise.Initiator.mode (Noise.Initiator.writeRequest_ok_iff.mp written).2
    exact kept.trans (Noise.Initiator.new_ok made).2
  · cases started

/-- A pattern without a static key has no use for one that was pinned. -/
theorem start_of_unused (unused : config.pattern.usesResponderStatic = false)
    (one other : Option PublicKey) (ephemeral : Bytes32) :
    start p config one payload ephemeral = start p config other payload ephemeral := by
  simp only [start, Noise.Initiator.new, Noise.Party.initiator, unused]

theorem fits_of_start {serverKey : Option PublicKey} {ephemeral : Bytes32}
    (started : start p config serverKey payload ephemeral = .ok handshake) :
    FitsMessage payload := by
  rw [start] at started
  split at started
  · next written =>
    obtain ⟨initiator, -, written⟩ := bind_eq_ok_iff.mp written
    obtain ⟨-, -, -, -, fits, -⟩ :=
      Noise.Party.written_of_write (Noise.Initiator.writeRequest_ok_iff.mp written).1
    exact fits
  · cases started

theorem length_request_le (sealing : p.Sealing) {serverKey : Option PublicKey} {ephemeral : Bytes32}
    (started : start p config serverKey payload ephemeral = .ok handshake) :
    handshake.request.length ≤
      2 * Noise.Party.keyLength + payload.length + Noise.Party.tagLength := by
  rw [start] at started
  split at started
  · next written =>
    cases started
    obtain ⟨initiator, -, written⟩ := bind_eq_ok_iff.mp written
    exact Noise.Initiator.length_writeRequest_le sealing written
  · cases started

theorem finish_ok {exchange : Exchange} {tag : Option Bytes}
    (finished : handshake.finish p exchange tag = .ok channel) :
    ∃ send receive, channel.pair = .new send receive handshake.initiator.mode := by
  rw [finish] at finished
  obtain ⟨message, -, finished⟩ := bind_eq_ok_iff.mp finished
  split at finished
  · cases finished
  · next read =>
    obtain ⟨named, -, done⟩ := bind_eq_ok_iff.mp finished
    cases done
    exact Noise.Initiator.readResponse_ok read

end ClientHandshake

namespace ClientChannel

/-- Sealing moves the sending direction, and nothing else. -/
theorem encrypt_eq (sent : channel.encrypt p ad plaintext = .ok (ciphertext, channel')) :
    ∃ encrypter, channel.pair.encrypter.encrypt p ad plaintext = .ok (ciphertext, encrypter) ∧
      channel' = { channel with pair := { channel.pair with encrypter := encrypter } } := by
  rw [encrypt] at sent
  split at sent
  · next sealed =>
    cases sent
    exact ⟨_, sealed, rfl⟩
  · cases sent

theorem id_of_encrypt (sent : channel.encrypt p ad plaintext = .ok (ciphertext, channel')) :
    channel'.id = channel.id := by
  obtain ⟨-, -, rfl⟩ := encrypt_eq sent
  rfl

theorem encrypt_ok (sent : channel.encrypt p ad plaintext = .ok (ciphertext, channel')) :
    channel.pair.encrypter.encrypt p ad plaintext = .ok (ciphertext, channel'.pair.encrypter) ∧
      channel'.pair.decrypter = channel.pair.decrypter := by
  obtain ⟨encrypter, sealed, rfl⟩ := encrypt_eq sent
  exact ⟨sealed, rfl⟩

theorem encrypt_isOk (p : Primitives) (ad : Bytes)
    (below : channel.pair.encrypter.nonce ≠ CipherState.lastNonce)
    (short : ¬ CipherState.tooLong plaintext) :
    ∃ ciphertext next, channel.encrypt p ad plaintext =
      .ok (ciphertext, { channel with pair := { channel.pair with encrypter := next } }) := by
  obtain ⟨ciphertext, next, sealed⟩ := CipherState.encrypt_isOk p ad below short
  exact ⟨ciphertext, next, by simp only [encrypt, sealed]⟩

theorem decrypt_ok (opened : channel.decrypt p ad ciphertext = .ok (plaintext, channel')) :
    channel.pair.decrypter.decrypt p ad ciphertext = .ok (plaintext, channel'.pair.decrypter) ∧
      channel'.pair.encrypter = channel.pair.encrypter := by
  rw [decrypt] at opened
  split at opened
  · next found =>
    cases opened
    exact ⟨found, rfl⟩
  · cases opened

theorem id_of_decrypt (opened : channel.decrypt p ad ciphertext = .ok (plaintext, channel')) :
    channel'.id = channel.id := by
  rw [decrypt] at opened
  split at opened <;> cases opened
  rfl

/-- What a client can open does not depend on what it has sealed. -/
theorem decrypt_isOk_of_sent (opened : channel.decrypt p ad ciphertext = .ok (plaintext, channel'))
    (next : CipherState) :
    ∃ after, ClientChannel.decrypt p
      { channel with pair := { channel.pair with encrypter := next } } ad ciphertext =
        .ok (plaintext, after) := by
  simp only [decrypt, (decrypt_ok opened).1]
  exact ⟨_, rfl⟩

end ClientChannel

end SecureChannel
