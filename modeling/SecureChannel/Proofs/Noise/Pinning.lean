import SecureChannel.Proofs.Noise.Agreement

/-!
# A wrong pin

Under `nk` both ends mix the responder's static key into the transcript before the first message:
the initiator the key that it has pinned, the responder its own one. The payload of the request is
sealed with the transcript as associated data. If the keys differ, so do the transcripts, and the
responder opens nothing; for an empty payload that is all there is to be opened.

Two things are asked of the primitives for that, and only at the values that a handshake meets: that
the digest does not collide on the two transcripts, and that what was sealed is not opened under
other associated data.
-/

namespace SecureChannel

theorem Bytes32.toBytes_inj {a b : Bytes32} : a.toBytes = b.toBytes ↔ a = b := by
  cases a
  cases b
  simp

namespace Primitives

/-- The digest tells the one sequences from the other ones. -/
def Distinguishes (p : Primitives) (one other : List Bytes) : Prop :=
  ∀ x ∈ one, ∀ y ∈ other, p.digest x = p.digest y → x = y

/-- What is sealed under a key with associated data is not opened with other associated data, even
under another key. -/
def BindsData (p : Primitives) (key other : Bytes32) (nonce : UInt64) (ad otherAd : Bytes)
    (plaintext : Bytes) : Prop :=
  p.decrypt other nonce otherAd (p.encrypt key nonce ad plaintext) ≠ none → otherAd = ad

end Primitives

namespace Noise

variable {p : Primitives} {static pinned e k : Bytes32} {payload message : Bytes}

/-! ### The transcript of a request -/

def prologueDigest (p : Primitives) : Bytes32 :=
  ((Symmetric.start p Pattern.nk.protocolName).mixHash p []).hash

/-- The transcript digest once the responder's static key is mixed in. -/
def staticDigest (p : Primitives) (static : Bytes32) : Bytes32 :=
  p.digest ((prologueDigest p).toBytes ++ static.toBytes)

/-- The transcript digest that the payload of a request is sealed with. -/
def requestDigest (p : Primitives) (static ephemeral : Bytes32) : Bytes32 :=
  p.digest ((staticDigest p static).toBytes ++ ephemeral.toBytes)

/-- What the digest is taken of from the static key on until the payload is sealed. -/
def requestTranscript (p : Primitives) (static ephemeral : Bytes32) : List Bytes :=
  [(prologueDigest p).toBytes ++ static.toBytes,
    (staticDigest p static).toBytes ++ ephemeral.toBytes]

/-- The key that the payload of a request is sealed under once a secret is agreed on. -/
def requestKey (p : Primitives) (secret : Bytes32) : Bytes32 :=
  (p.derive (p.digest (Bytes.ofText Pattern.nk.protocolName)) secret.toBytes).2

/-- Requests for different static keys are sealed with different transcripts. -/
theorem requestDigest_ne {ephemeral : Bytes32}
    (distinguishes : p.Distinguishes (requestTranscript p pinned ephemeral)
      (requestTranscript p static ephemeral)) (wrong : pinned ≠ static) :
    requestDigest p pinned ephemeral ≠ requestDigest p static ephemeral := by
  intro collide
  -- The transcripts are nested digests, so a collision of the outer ones would be one of the inner.
  have ends := distinguishes _ (.tail _ (.head _)) _ (.tail _ (.head _)) collide
  have statics : staticDigest p pinned = staticDigest p static :=
    Bytes32.toBytes_inj.mp (List.append_cancel_right ends)
  have starts := distinguishes _ (.head _) _ (.head _) statics
  exact wrong (Bytes32.toBytes_inj.mp (List.append_cancel_left starts))

/-! ### The request -/

/-- What an initiator writes that has pinned a static key. -/
theorem Party.write_request {party party' : Party}
    (made : Party.initiator p .nk (some pinned) = .ok party)
    (written : party.write p e payload = .ok (message, party')) :
    message = (p.publicKey e).toBytes ++ p.encrypt (requestKey p (p.agree e pinned)) 0
      (requestDigest p pinned (p.publicKey e)).toBytes payload := by
  obtain rfl := Except.ok.inj made
  obtain ⟨tokens, head, next, -, listed, tokensWritten, -, rfl, -⟩ := Party.write_ok_iff.mp written
  cases listed
  cases tokensWritten
  rfl

/-- The ephemeral key is taken off the front of a message. -/
theorem Party.readToken_e (party : Party) (ephemeral : Bytes32) (rest : Bytes) :
    readToken p (ephemeral.toBytes ++ rest, party) .e = .ok (rest,
      { party with
        symmetric := party.symmetric.mixHash p ephemeral.toBytes
        remoteEphemeral := some ephemeral }) := by
  have front : (ephemeral.toBytes ++ rest).take keyLength = ephemeral.toBytes :=
    List.take_left' ephemeral.length_toBytes
  have back : (ephemeral.toBytes ++ rest).drop keyLength = rest :=
    List.drop_left' ephemeral.length_toBytes
  simp only [readToken, front, back, Bytes32.ofBytes?_toBytes]

/-- A message whose payload does not open is refused, whatever its keys are. -/
theorem Party.read_error {party next : Party} {tokens : List Token} {rest : Bytes}
    (turn : party.myTurn = false) (listed : party.pattern.messages[party.position]? = some tokens)
    (heard : tokens.foldlM (readToken p) (message, party) = .ok (rest, next))
    (closed : next.symmetric.decryptAndHash p rest = none) :
    ∃ fault, party.read p message = .error fault := by
  by_cases long : maxMessage < message.length
  · refine ⟨.input, ?_⟩
    simp only [read, if_pos long]
    rfl
  · refine ⟨.decrypt, ?_⟩
    simp only [read, if_neg long, turn, listed, heard, closed, bind, Except.bind]
    rfl

/-- A responder opens what follows the ephemeral key with its own transcript. -/
theorem Party.read_request {party : Party}
    (made : Party.responder p .nk (some k) = .ok party) (ephemeral : Bytes32) {sealed : Bytes}
    (closed : p.decrypt (requestKey p (p.agree k ephemeral)) 0
      (requestDigest p (p.publicKey k) ephemeral).toBytes sealed = none) :
    ∃ fault, party.read p (ephemeral.toBytes ++ sealed) = .error fault := by
  obtain rfl := Except.ok.inj made
  refine Party.read_error rfl rfl (by rw [List.foldlM_cons, readToken_e]; rfl) ?_
  exact congrArg (Option.bind · _) closed

/-- What is asked of the primitives for an initiator that has pinned a key and a responder with the
private half of another one. -/
structure TellsApart (p : Primitives) (pinned k e : Bytes32) (payload : Bytes) : Prop where
  distinguishes : p.Distinguishes (requestTranscript p pinned (p.publicKey e))
    (requestTranscript p (p.publicKey k) (p.publicKey e))
  bindsData : p.BindsData (requestKey p (p.agree e pinned))
    (requestKey p (p.agree k (p.publicKey e))) 0 (requestDigest p pinned (p.publicKey e)).toBytes
    (requestDigest p (p.publicKey k) (p.publicKey e)).toBytes payload

theorem TellsApart.closed (apart : TellsApart p pinned k e payload)
    (wrong : pinned ≠ p.publicKey k) :
    p.decrypt (requestKey p (p.agree k (p.publicKey e))) 0
      (requestDigest p (p.publicKey k) (p.publicKey e)).toBytes
      (p.encrypt (requestKey p (p.agree e pinned)) 0
        (requestDigest p pinned (p.publicKey e)).toBytes payload) = none := by
  apply Classical.byContradiction
  intro opened
  have same := Bytes32.toBytes_inj.mp (apart.bindsData opened)
  exact requestDigest_ne apart.distinguishes wrong same.symm

/-- The responder refuses the request of an initiator that has pinned another key. -/
theorem readRequest_of_wrong_pin (apart : TellsApart p pinned k e payload)
    (wrong : pinned ≠ p.publicKey k) {mode mode' : NonceMode} {i i' : Initiator} {r : Responder}
    (initiator : Initiator.new p .nk (some pinned) mode = .ok i)
    (responder : Responder.new p .nk (some k) mode' = .ok r)
    (written : i.writeRequest p e payload = .ok (message, i')) :
    ∃ fault, r.readRequest p message = .error (.engine fault) := by
  obtain ⟨sent, -⟩ := Initiator.writeRequest_ok_iff.mp written
  rw [Party.write_request (Initiator.new_ok initiator).1 sent]
  obtain ⟨fault, refused⟩ :=
    Party.read_request (Responder.new_ok responder).1 _ (apart.closed wrong)
  refine ⟨fault, ?_⟩
  rw [Responder.readRequest, refused]
  rfl

end Noise

end SecureChannel
