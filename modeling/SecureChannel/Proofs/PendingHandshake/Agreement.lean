import SecureChannel.ClientChannel
import SecureChannel.PendingHandshake
import SecureChannel.Proofs.Noise.Agreement

/-!
# A client and the server it shakes hands with

The client that has written a request and the server that has read it are `Paired`. From then on
only the length of the server's payload decides whether there is a response, and a response
completes both ends: the client gets the payload back, and the channels that come out of it belong
together.
-/

namespace SecureChannel

open Noise

variable {p : Primitives} {config : Config} {key : Option Bytes32} {e fresh : Bytes32}
variable {payload message : Bytes} {client : ClientHandshake} {pending : PendingHandshake}

/-- The client has sent its request under the ephemeral key `e`, and the server, which has the
static key `key` or none, has read it. -/
structure Paired (p : Primitives) (config : Config) (key : Option Bytes32) (e : Bytes32)
    (client : ClientHandshake) (pending : PendingHandshake) : Prop where
  clientConfig : client.config = config
  serverConfig : pending.config = config
  mode : client.initiator.mode = config.nonceMode
  engaged : Engaged p e key client.initiator pending.responder

/-- An honest request is written and read, and the server gets its payload. -/
theorem paired_of_fits (sealing : p.Sealing) (e : Bytes32)
    (keyed : config.pattern.usesResponderStatic = true → key ≠ none)
    (agree : ∀ k, key = some k → p.Agree e k) (fits : FitsMessage payload) :
    ∃ client pending,
      ClientHandshake.start p config (key.map fun k => ⟨p.publicKey k⟩) payload e = .ok client ∧
      PendingHandshake.accept p config (key.map (StaticKey.ofPrivate p)) client.request =
        .ok pending ∧
      pending.payload = payload ∧ Paired p config key e client pending := by
  have pinned : (key.map fun k => (⟨p.publicKey k⟩ : PublicKey)).map PublicKey.point =
      key.map p.publicKey := by
    cases key <;> rfl
  have private_ : (key.map (StaticKey.ofPrivate p)).map StaticKey.privateKey = key := by
    cases key <;> rfl
  have given : config.pattern.usesResponderStatic = true →
      ∃ k, key = some k ∧ key.map p.publicKey = some (p.publicKey k) := by
    intro uses
    obtain ⟨k, rfl⟩ := Option.ne_none_iff_exists'.mp (keyed uses)
    exact ⟨k, rfl, rfl⟩
  obtain ⟨i, r, initiator, responder, -⟩ := new_isOk p config.pattern config.nonceMode given
  obtain ⟨request, i', r', written, read, engaged, mode⟩ :=
    request_agrees sealing initiator responder (fun _ => rfl) agree fits
  refine ⟨⟨config, i', request⟩, ⟨config, r', payload⟩, ?_, ?_, rfl, rfl, rfl, mode, engaged⟩
  · rw [ClientHandshake.start, pinned, initiator]
    simp only [bind, Except.bind, written]
  · rw [PendingHandshake.accept, private_, responder]
    simp only [bind, Except.bind, read]

namespace Paired

/-- Only the length of the payload decides whether there is a response. -/
theorem respond_ok_iff (paired : Paired p config key e client pending) :
    (∃ message finished, pending.respond p fresh payload = .ok (message, finished)) ↔
      FitsMessage payload := by
  rw [FitsMessage, ← response_ok_iff paired.engaged fresh, PendingHandshake.respond]
  cases written : pending.responder.writeResponse p fresh payload <;> simp

/-- A response completes the client's end too, and both ends belong together. -/
theorem readResponse_of_respond (sealing : p.Sealing)
    (paired : Paired p config key e client pending) (agreeFresh : p.Agree fresh e)
    (agreeStatic : ∀ k, key = some k → p.Agree k e) {finished : Finished}
    (responded : pending.respond p fresh payload = .ok (message, finished)) :
    ∃ up down remote, finished.pair = .new down up config.nonceMode ∧
      client.initiator.readResponse p message =
        .ok (payload, ⟨.new up down config.nonceMode, finished.hash, remote⟩) := by
  have fits : FitsMessage payload := paired.respond_ok_iff.mp ⟨message, finished, responded⟩
  obtain ⟨message', hash, up, down, written, read⟩ :=
    response_agrees sealing paired.engaged agreeFresh agreeStatic fits
  rw [PendingHandshake.respond, written] at responded
  obtain ⟨rfl, rfl⟩ := Prod.mk.inj (Except.ok.inj responded)
  rw [paired.mode] at read
  exact ⟨up, down, _, by rw [paired.mode], read⟩

end Paired

end SecureChannel
