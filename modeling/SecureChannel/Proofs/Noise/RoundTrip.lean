import SecureChannel.Proofs.CipherState.Runs
import SecureChannel.Proofs.Noise.Outcome

/-!
# A whole handshake between honest ends

`roundTrip` carries the request of an initiator to a responder and the response back, both as they
were written. It succeeds exactly if both payloads fit a message, for either pattern, either way of
numbering and all keys on which the key agreement agrees. Then each end has the payload of the
other, both know the handshake by one digest, and the directions of the channel are crossed: what
one end seals with is what the other opens with.

A payload fits if there is room for it beside a key and a tag. The engine keeps that room free also
in the one message without a tag, the request of the pattern `nn`.
-/

namespace SecureChannel.Noise

variable {p : Primitives} {pattern : Pattern} {mode : NonceMode} {known key : Option Bytes32}
variable {i : Initiator} {r : Responder} {e fresh : Bytes32} {request response : Bytes}

structure Completed where
  request : Bytes
  response : Bytes
  initiator : Finished
  responder : Finished

/-- A handshake in which both messages arrive as they were written. -/
def roundTrip (p : Primitives) (i : Initiator) (r : Responder) (e fresh : Bytes32)
    (request response : Bytes) : Except Error Completed := do
  let (there, i) ← i.writeRequest p e request
  let (heard, r) ← r.readRequest p there
  let (back, responder) ← r.writeResponse p fresh response
  let (reply, initiator) ← i.readResponse p back
  return ⟨heard, reply, initiator, responder⟩

/-- Two ends agree after a handshake: they know it by one digest, and each opens with what the other
seals with. So whatever one of them seals, the other opens, in order. -/
structure Agreed (p : Primitives) (initiator responder : Finished) : Prop where
  hash : responder.hash = initiator.hash
  up : responder.pair.decrypter = initiator.pair.encrypter
  down : initiator.pair.decrypter = responder.pair.encrypter
  deliversUp : CipherState.Delivers p initiator.pair.encrypter responder.pair.decrypter
  deliversDown : CipherState.Delivers p responder.pair.encrypter initiator.pair.decrypter

/-- Where a handshake comes to its end, both payloads fit. -/
theorem fits_of_roundTrip {x : Completed}
    (done : roundTrip p i r e fresh request response = .ok x) :
    FitsMessage request ∧ FitsMessage response := by
  simp only [roundTrip, bind_eq_ok_iff] at done
  obtain ⟨⟨there, i'⟩, asked, ⟨heard, r'⟩, -, ⟨back, finished⟩, answered, -⟩ := done
  obtain ⟨written, -⟩ := Initiator.writeRequest_ok_iff.mp asked
  obtain ⟨party, responded, -⟩ := Responder.writeResponse_ok_iff.mp answered
  obtain ⟨-, -, -, -, fitsRequest, -⟩ := Party.written_of_write written
  obtain ⟨-, -, -, -, fitsResponse, -⟩ := Party.written_of_write responded
  exact ⟨fitsRequest, fitsResponse⟩

/-- A handshake between honest ends comes to its end, and they agree. -/
theorem roundTrip_of_fits (sealing : p.Sealing)
    (initiator : Initiator.new p pattern known mode = .ok i)
    (responder : Responder.new p pattern key mode = .ok r)
    (pinned : pattern.usesResponderStatic = true → known = key.map p.publicKey)
    (agreeFresh : p.Agree e fresh) (agreeStatic : ∀ k, key = some k → p.Agree e k)
    (fitsRequest : FitsMessage request) (fitsResponse : FitsMessage response) :
    ∃ x, roundTrip p i r e fresh request response = .ok x ∧ x.request = request ∧
      x.response = response ∧ x.initiator.remoteStatic = i.party.remoteStatic ∧
      Agreed p x.initiator x.responder := by
  obtain ⟨there, i', r', sent, heard, engaged, -⟩ :=
    request_agrees sealing initiator responder pinned agreeStatic fitsRequest
  obtain ⟨back, hash, up, down, answered, reply⟩ :=
    response_agrees sealing engaged agreeFresh.symm (fun k given => (agreeStatic k given).symm)
      fitsResponse
  obtain ⟨written, -⟩ := Initiator.writeRequest_ok_iff.mp sent
  obtain ⟨-, -, -, -, -, kept⟩ := Party.written_of_write written
  refine ⟨⟨request, response, ⟨.new up down i'.mode, hash, i'.party.remoteStatic⟩,
    ⟨.new down up i'.mode, hash, r'.party.remoteStatic⟩⟩, ?_, rfl, rfl, kept.remoteStatic,
    ⟨rfl, rfl, rfl, ?_, ?_⟩⟩
  · simp only [roundTrip, sent, heard, answered, reply, bind, Except.bind, pure, Except.pure]
  · exact (CipherState.inStep_new up i'.mode).delivers sealing
  · exact (CipherState.inStep_new down i'.mode).delivers sealing

/-- Both ends of a handshake can be made, and the handshake succeeds exactly if both payloads fit.
Then the payloads arrive, the initiator names the key that it was pinned to if the pattern uses one,
and both ends agree. -/
theorem roundTrip_agrees (sealing : p.Sealing) (pattern : Pattern) (mode : NonceMode)
    (pinned : pattern.usesResponderStatic = true →
      ∃ k, key = some k ∧ known = some (p.publicKey k))
    (agreeFresh : p.Agree e fresh) (agreeStatic : ∀ k, key = some k → p.Agree e k) :
    ∃ i r, Initiator.new p pattern known mode = .ok i ∧
      Responder.new p pattern key mode = .ok r ∧ ∀ request response,
        ((∃ x, roundTrip p i r e fresh request response = .ok x) ↔
          FitsMessage request ∧ FitsMessage response) ∧
        ∀ x, roundTrip p i r e fresh request response = .ok x →
          x.request = request ∧ x.response = response ∧
          x.initiator.remoteStatic = (if pattern.usesResponderStatic then known else none) ∧
          Agreed p x.initiator x.responder := by
  obtain ⟨i, r, initiator, responder, remote⟩ := new_isOk p pattern mode pinned
  have same : pattern.usesResponderStatic = true → known = key.map p.publicKey := by
    intro uses
    obtain ⟨k, rfl, rfl⟩ := pinned uses
    rfl
  refine ⟨i, r, initiator, responder, ?_⟩
  intro request response
  have run (fits : FitsMessage request ∧ FitsMessage response) :=
    roundTrip_of_fits sealing initiator responder same agreeFresh agreeStatic fits.1 fits.2
  refine ⟨⟨?_, ?_⟩, ?_⟩
  · rintro ⟨x, done⟩
    exact fits_of_roundTrip done
  · intro fits
    obtain ⟨x, done, -⟩ := run fits
    exact ⟨x, done⟩
  · intro x done
    obtain ⟨y, finished, sent, replied, named, agreed⟩ := run (fits_of_roundTrip done)
    obtain rfl : y = x := Except.ok.inj (finished.symm.trans done)
    exact ⟨sent, replied, named.trans remote, agreed⟩

/-- A handshake with a static key, in which both payloads fit. -/
theorem roundTrip_agrees_nk :
    let key : Bytes32 := .ofNatLE 11
    ∃ i r x, Initiator.new .standard .nk (some (Primitives.standard.publicKey key)) .implicit =
        .ok i ∧
      Responder.new .standard .nk (some key) .implicit = .ok r ∧
      roundTrip .standard i r (.ofNatLE 7) (.ofNatLE 9) [1, 2] [3] = .ok x ∧
      x.request = [1, 2] ∧ x.response = [3] ∧
      x.initiator.remoteStatic = some (Primitives.standard.publicKey key) ∧
      Agreed .standard x.initiator x.responder := by
  intro key
  obtain ⟨i, r, initiator, responder, run⟩ :=
    roundTrip_agrees Primitives.standard_sealing .nk .implicit
      (fun _ => ⟨key, rfl, rfl⟩) Primitives.agree_standard.1
      (by rintro k ⟨⟩; exact Primitives.agree_standard.2)
  obtain ⟨x, done⟩ := (run [1, 2] [3]).1.mpr (by decide)
  exact ⟨i, r, x, initiator, responder, done, (run [1, 2] [3]).2 x done⟩

end SecureChannel.Noise
