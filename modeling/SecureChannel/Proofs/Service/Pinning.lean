import SecureChannel.Proofs.Noise.Outcome
import SecureChannel.Proofs.Noise.Pinning
import SecureChannel.Service

/-!
# A wrong pin never completes

A client that pins another key than the server's writes a request that the server refuses. The
server's registry stays as it is, and the client, which is told that its request was refused, has no
channel. Nothing else enters into it: not the names, the tags or the random numbers of either side,
and not the transport of the server, which gets nothing to send.
-/

namespace SecureChannel

open Noise

variable {p : Primitives} {config : Config} {s : Service} {k pinned e : Bytes32}
  {payload request : Bytes} {h : ClientHandshake}

namespace ClientHandshake

/-- The request is written by a fresh initiator. -/
theorem written_of_start {serverKey : Option PublicKey}
    (started : start p config serverKey payload e = .ok h) :
    ∃ i, Initiator.new p config.pattern (serverKey.map PublicKey.point) config.nonceMode = .ok i ∧
      i.writeRequest p e payload = .ok (h.request, h.initiator) := by
  simp only [start] at started
  split at started
  · next written =>
    cases started
    exact bind_eq_ok_iff.mp written
  · cases started

/-- A client that has pinned a key starts its handshake exactly if the payload fits. Otherwise that
is an error of the handshake. -/
theorem start_pinned (p : Primitives) (pattern : config.pattern = .nk) (pinned e : Bytes32)
    (payload : Bytes) :
    (FitsMessage payload → ∃ h, start p config (some ⟨pinned⟩) payload e = .ok h) ∧
      (¬ FitsMessage payload →
        ∃ text, start p config (some ⟨pinned⟩) payload e = .error (.handshake text)) := by
  obtain ⟨i, made⟩ : ∃ i, Initiator.new p .nk (some pinned) config.nonceMode = .ok i := ⟨_, rfl⟩
  have fresh := (Initiator.new_ok made).1
  constructor
  · intro fits
    obtain ⟨request, party, written, -⟩ := Party.request_written fresh e fits
    have sent : i.writeRequest p e payload = .ok (request, ⟨party, i.mode⟩) :=
      Initiator.writeRequest_ok_iff.mpr ⟨written, rfl⟩
    refine ⟨⟨config, ⟨party, i.mode⟩, request⟩, ?_⟩
    simp only [start, pattern, Option.map_some, made, bind, Except.bind, sent]
  · intro long
    cases written : i.party.write p e payload with
    | ok answer =>
      obtain ⟨-, -, -, -, fits, -⟩ := Party.written_of_write written
      exact absurd fits long
    | error fault =>
      have unsent : i.writeRequest p e payload = .error (.engine fault) := by
        rw [Initiator.writeRequest, written]
        rfl
      refine ⟨(Noise.Error.engine fault).message, ?_⟩
      simp only [start, pattern, Option.map_some, made, bind, Except.bind, unsent]
      rfl

/-- A client that is told that its request was refused has no channel. -/
theorem finish_refused (h : ClientHandshake) (tag : Option Bytes) :
    ∃ text, h.finish p (.failed (.rejected .unauthorized)) tag = .error (.handshake text) :=
  ⟨_, rfl⟩

end ClientHandshake

namespace Service

/-- A server with a static key does not accept the request of a client that has pinned another. -/
theorem accept_of_wrong_pin (apart : TellsApart p pinned k e payload)
    (wrong : pinned ≠ p.publicKey k) (clientPattern : config.pattern = .nk)
    (serverPattern : s.config.pattern = .nk) (key : s.key = some (StaticKey.ofPrivate p k))
    (started : ClientHandshake.start p config (some ⟨pinned⟩) payload e = .ok h) :
    ∃ text, PendingHandshake.accept p s.config s.key h.request = .error (.handshake text) := by
  obtain ⟨i, made, written⟩ := ClientHandshake.written_of_start started
  rw [clientPattern] at made
  obtain ⟨r, responder⟩ : ∃ r, Responder.new p .nk (some k) s.config.nonceMode = .ok r := ⟨_, rfl⟩
  obtain ⟨fault, refused⟩ := readRequest_of_wrong_pin apart wrong made responder written
  have own : s.key.map StaticKey.privateKey = some k := by
    rw [key]
    rfl
  refine ⟨(Noise.Error.engine fault).message, ?_⟩
  simp only [PendingHandshake.accept, serverPattern, own, responder, bind, Except.bind, refused]
  rfl

/-- It refuses the request, and stays as it is. -/
theorem handleHandshake_of_wrong_pin (apart : TellsApart p pinned k e payload)
    (wrong : pinned ≠ p.publicKey k) (clientPattern : config.pattern = .nk)
    (serverPattern : s.config.pattern = .nk) (key : s.key = some (StaticKey.ofPrivate p k))
    (started : ClientHandshake.start p config (some ⟨pinned⟩) payload e = .ok h) :
    ∃ text, ∀ now tag draws fresh transport,
      s.handleHandshake p now tag h.request draws fresh transport =
        (⟨none, .error (.handshake text)⟩, s) := by
  obtain ⟨text, rejected⟩ :=
    accept_of_wrong_pin apart wrong clientPattern serverPattern key started
  refine ⟨text, ?_⟩
  intro now tag draws fresh transport
  rw [handleHandshake, rejected]

/-- A client that pins another key than the server's never gets a channel from it. If its payload
fits a request, it writes one; otherwise that is an error of the handshake already. Whatever the
ephemeral keys and the modes of both ends are, the server's end of the handshake refuses the
request. So the server, with whatever channels, answers with an error of the handshake and is left
unchanged, and the client that is told what became of its request fails with one, too. -/
theorem refused_of_wrong_pin (apart : TellsApart p pinned k e payload)
    (wrong : pinned ≠ p.publicKey k) (clientPattern : config.pattern = .nk)
    (serverPattern : s.config.pattern = .nk) (key : s.key = some (StaticKey.ofPrivate p k)) :
    (FitsMessage payload →
      ∃ h, ClientHandshake.start p config (some ⟨pinned⟩) payload e = .ok h) ∧
    (¬ FitsMessage payload → ∃ text,
      ClientHandshake.start p config (some ⟨pinned⟩) payload e = .error (.handshake text)) ∧
    ∀ h, ClientHandshake.start p config (some ⟨pinned⟩) payload e = .ok h →
      (∀ mode r, Responder.new p .nk (some k) mode = .ok r →
        ∃ fault, r.readRequest p h.request = .error (.engine fault)) ∧
      ∃ text,
        (∀ now tag draws fresh transport,
          s.handleHandshake p now tag h.request draws fresh transport =
            (⟨none, .error (.handshake text)⟩, s)) ∧
        ∀ tag, ∃ reason,
          h.finish p (.failed (.rejected (ChannelError.handshake text).outcome)) tag =
            .error (.handshake reason) := by
  obtain ⟨starts, fails⟩ := ClientHandshake.start_pinned p clientPattern pinned e payload
  refine ⟨starts, fails, ?_⟩
  intro h started
  constructor
  · intro mode r responder
    obtain ⟨i, made, written⟩ := ClientHandshake.written_of_start started
    rw [clientPattern] at made
    exact readRequest_of_wrong_pin apart wrong made responder written
  · obtain ⟨text, refused⟩ :=
      handleHandshake_of_wrong_pin apart wrong clientPattern serverPattern key started
    exact ⟨text, refused, h.finish_refused⟩

set_option maxRecDepth 100000 in
/-- An empty payload, sealed for one key, is not opened with another. -/
theorem tellsApart_standard :
    TellsApart .standard (.ofNatLE 5) (.ofNatLE 11) (.ofNatLE 7) [] := by
  constructor
  · simp only [Primitives.Distinguishes]
    decide +kernel
  · simp only [Primitives.BindsData]
    decide +kernel

/-- A configuration in which clients pin the server's key. -/
def pinning : Config := { Config.default with pattern := .nk }

/-- A server under a key of its own, without channels. -/
def keyedServer : Service :=
  ⟨pinning, some (StaticKey.ofPrivate .standard (.ofNatLE 11)), .new pinning.limits, id⟩

/-- A client that has pinned another key gets no channel from that server. -/
theorem refused_of_wrong_pin_empty : ∃ h text reason,
    ClientHandshake.start .standard pinning (some ⟨.ofNatLE 5⟩) [] (.ofNatLE 7) = .ok h ∧
    keyedServer.handleHandshake .standard 0 none h.request (fun _ => 0) default
        (fun _ => .delivered) = (⟨none, .error (.handshake text)⟩, keyedServer) ∧
    h.finish .standard (.failed (.rejected .unauthorized)) none =
      .error (.handshake reason) := by
  have wrong : (.ofNatLE 5 : Bytes32) ≠ Primitives.standard.publicKey (.ofNatLE 11) := by
    decide +kernel
  obtain ⟨starts, -, refuses⟩ :=
    refused_of_wrong_pin (s := keyedServer) tellsApart_standard wrong
      (rfl : pinning.pattern = .nk) rfl rfl
  obtain ⟨h, started⟩ := starts (by decide)
  obtain ⟨-, text, refused, told⟩ := refuses h started
  obtain ⟨reason, failed⟩ := told none
  exact ⟨h, text, reason, started, refused .., failed⟩

end Service

end SecureChannel
