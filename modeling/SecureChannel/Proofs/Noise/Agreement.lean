import SecureChannel.Proofs.Noise.Mirror

/-!
# Both ends of a handshake agree

A message that one party writes the other reads, and the parties still mirror each other. Two such
messages complete a handshake: each end gets the payload of the other, both report the same
transcript digest, and what one end seals with the other opens with.

The parties may use any keys on which the key agreement agrees. The only other condition is that
both payloads fit a message, so that there is nothing else that could go wrong between honest ends.
-/

namespace SecureChannel

open Noise in
/-- A payload that a message has room for, with a key in front of it and a tag behind it. -/
def FitsMessage (payload : Bytes) : Prop :=
  Party.keyLength + payload.length + Party.tagLength ≤ Party.maxMessage

instance (payload : Bytes) : Decidable (FitsMessage payload) :=
  inferInstanceAs (Decidable (_ ≤ _))

namespace Noise

variable {p : Primitives}

namespace Party

variable {one other one' party party' next : Party} {fresh : Bytes32} {payload message : Bytes}

/-- What the messages of a handshake never change in a party. -/
structure Kept (before after : Party) : Prop where
  pattern : after.pattern = before.pattern
  role : after.role = before.role
  localStatic : after.localStatic = before.localStatic
  remoteStatic : after.remoteStatic = before.remoteStatic

theorem Kept.refl (party : Party) : Kept party party := ⟨rfl, rfl, rfl, rfl⟩

theorem Kept.trans (first : Kept one party) (second : Kept party next) : Kept one next :=
  ⟨second.pattern.trans first.pattern, second.role.trans first.role,
    second.localStatic.trans first.localStatic, second.remoteStatic.trans first.remoteStatic⟩

theorem kept_writeToken {out out' : Bytes} {token : Token}
    (written : writeToken p fresh (out, party) token = .ok (out', party')) :
    Kept party party' := by
  by_cases ephemeral : token = .e
  · subst ephemeral
    obtain ⟨-, rfl⟩ := by simpa [writeToken] using written
    exact ⟨rfl, rfl, rfl, rfl⟩
  · obtain ⟨shared, -, -, rfl⟩ := writeToken_of_ne_e ephemeral written
    exact ⟨rfl, rfl, rfl, rfl⟩

theorem kept_readToken {rest rest' : Bytes} {token : Token}
    (read : readToken p (rest, party) token = .ok (rest', party')) : Kept party party' := by
  cases token with
  | e =>
    simp only [readToken] at read
    split at read
    · simp at read
    · obtain ⟨-, rfl⟩ := by simpa using read
      exact ⟨rfl, rfl, rfl, rfl⟩
  | ee | es =>
    simp only [readToken, bind, Except.bind, pure, Except.pure] at read
    split at read
    · simp at read
    · obtain ⟨-, rfl⟩ := by simpa using read
      exact ⟨rfl, rfl, rfl, rfl⟩

/-- What one party writes for all tokens of a message, the other reads off the front of it. -/
theorem readTokens_of_writeTokens {out out' : Bytes} {tokens : List Token}
    (mirrors : Mirrors p one other)
    (agree : ∀ a b, one.Holds a ∨ a = fresh → other.Holds b → p.Agree a b)
    (written : tokens.foldlM (writeToken p fresh) (out, one) = .ok (out', one')) :
    ∃ head other', out' = out ++ head ∧
      (∀ rest, tokens.foldlM (readToken p) (head ++ rest, other) = .ok (rest, other')) ∧
      Mirrors p one' other' ∧ Kept one one' ∧ Kept other other' := by
  induction tokens generalizing out one other with
  | nil =>
    obtain ⟨rfl, rfl⟩ : out = out' ∧ one = one' := by
      simpa [pure, Except.pure] using written
    exact ⟨[], other, by simp, fun _ => rfl, mirrors, .refl one, .refl other⟩
  | cons token tokens ih =>
    rw [List.foldlM_cons, bind_eq_ok_iff] at written
    obtain ⟨⟨middle, oneNext⟩, step, written⟩ := written
    obtain ⟨first, otherNext, rfl, reads, mirrorsNext, holdsOne, holdsOther⟩ :=
      readToken_of_writeToken mirrors (fun a b ha => agree a b (.inl ha)) step
    have agreeNext : ∀ a b, oneNext.Holds a ∨ a = fresh → otherNext.Holds b → p.Agree a b := by
      rintro a b (held | same) hb
      · exact agree a b (holdsOne a held) (holdsOther b hb)
      · exact agree a b (.inr same) (holdsOther b hb)
    obtain ⟨second, other', rfl, readsRest, mirrors', keptOne, keptOther⟩ :=
      ih mirrorsNext agreeNext written
    refine ⟨first ++ second, other', List.append_assoc .., ?_, mirrors',
      (kept_writeToken step).trans keptOne, (kept_readToken (reads [])).trans keptOther⟩
    intro rest
    rw [List.foldlM_cons, List.append_assoc, reads]
    exact readsRest rest

/-- A message is written exactly if it is this party's turn, the keys for it are there, and it
fits. -/
theorem write_ok_iff : party.write p fresh payload = .ok (message, party') ↔
    ∃ tokens head next, party.myTurn = true ∧
      party.pattern.messages[party.position]? = some tokens ∧
      tokens.foldlM (writeToken p fresh) ([], party) = .ok (head, next) ∧
      head.length + payload.length + tagLength ≤ maxMessage ∧
      head ++ (next.symmetric.encryptAndHash p payload).1 = message ∧
      { next with
        symmetric := (next.symmetric.encryptAndHash p payload).2
        position := party.position + 1
        myTurn := false } = party' := by
  simp only [write, bind, Except.bind, pure, Except.pure, throw, throwThe, MonadExceptOf.throw]
  constructor
  · intro written
    split at written
    · simp at written
    · next turn =>
      split at written
      · simp at written
      · next tokens hTokens =>
        split at written
        · simp at written
        · next state written' =>
          obtain ⟨head, next⟩ := state
          split at written
          · simp at written
          · next fits =>
            obtain ⟨rfl, rfl⟩ := by simpa using written
            exact ⟨tokens, head, next, by simpa using turn, hTokens, written', Nat.not_lt.mp fits,
              rfl, rfl⟩
  · rintro ⟨tokens, head, next, turn, hTokens, written, fits, rfl, rfl⟩
    simp only [turn, hTokens, written, Bool.not_true, Bool.false_eq_true, if_false]
    rw [if_neg (by omega)]

/-- A party reads what the party that it mirrors has written, and gets the payload. -/
theorem read_of_write (sealing : p.Sealing) (mirrors : Mirrors p one other)
    (turn : other.myTurn = false)
    (agree : ∀ a b, one.Holds a ∨ a = fresh → other.Holds b → p.Agree a b)
    (written : one.write p fresh payload = .ok (message, one')) :
    ∃ other', other.read p message = .ok (payload, other') ∧ Mirrors p one' other' ∧
      Kept one one' ∧ Kept other other' ∧ one'.position = one.position + 1 ∧
      other'.myTurn = true := by
  obtain ⟨tokens, head, next, -, hTokens, tokensWritten, fits, rfl, rfl⟩ := write_ok_iff.mp written
  obtain ⟨head', otherNext, whole, reads, mirrorsNext, keptOne, keptOther⟩ :=
    readTokens_of_writeTokens mirrors agree tokensWritten
  obtain rfl : head = head' := whole
  have short : ¬ maxMessage < (head ++ (next.symmetric.encryptAndHash p payload).1).length := by
    have := Symmetric.length_encryptAndHash_le sealing next.symmetric payload
    rw [List.length_append]
    omega
  have tokensOther : other.pattern.messages[other.position]? = some tokens := by
    rw [mirrors.pattern, mirrors.position, hTokens]
  refine ⟨{ otherNext with
      symmetric := (next.symmetric.encryptAndHash p payload).2
      position := other.position + 1
      myTurn := true }, ?_, ?_, ⟨keptOne.1, keptOne.2, keptOne.3, keptOne.4⟩,
    ⟨keptOther.1, keptOther.2, keptOther.3, keptOther.4⟩, rfl, rfl⟩
  · simp only [read, bind, Except.bind, pure, Except.pure, throw, throwThe, MonadExceptOf.throw]
    rw [if_neg short]
    simp only [turn, tokensOther, reads, mirrorsNext.symmetric,
      Symmetric.decryptAndHash_encryptAndHash sealing]
    rfl
  · exact { mirrorsNext with
      symmetric := rfl
      position := congrArg (· + 1) mirrors.position }

/-- A fresh initiator writes its request if the payload fits, and sends its ephemeral key. -/
theorem request_written {pattern : Pattern} {known : Option Bytes32}
    (made : Party.initiator p pattern known = .ok party) (fresh : Bytes32)
    (fits : keyLength + payload.length + tagLength ≤ maxMessage) :
    ∃ message party', party.write p fresh payload = .ok (message, party') ∧
      party'.ephemeral = some fresh ∧ party'.remoteEphemeral = none ∧
      party'.localStatic = none := by
  have head : ([] ++ (p.publicKey fresh).toBytes : Bytes).length + payload.length + tagLength ≤
      maxMessage := by simpa [keyLength] using fits
  cases pattern with
  | nn =>
    obtain rfl := Except.ok.inj made
    exact ⟨_, _, write_ok_iff.mpr ⟨_, _, _, rfl, rfl, rfl, head, rfl, rfl⟩, rfl, rfl, rfl⟩
  | nk =>
    cases known with
    | none => simp [Party.initiator, Pattern.usesResponderStatic] at made
    | some key =>
      obtain rfl := Except.ok.inj made
      exact ⟨_, _, write_ok_iff.mpr ⟨_, _, _, rfl, rfl, rfl, head, rfl, rfl⟩, rfl, rfl, rfl⟩

/-- A party that has read a request writes its response exactly if the payload fits. -/
theorem response_written_iff (p : Primitives) (fresh : Bytes32) (turn : party.myTurn = true)
    (position : party.position = 1) {theirs : Bytes32}
    (heard : party.remoteEphemeral = some theirs) :
    (∃ message party', party.write p fresh payload = .ok (message, party')) ↔
      keyLength + payload.length + tagLength ≤ maxMessage := by
  have tokens : party.pattern.messages[party.position]? = some [.e, .ee] := by
    rw [position]
    cases party.pattern <;> rfl
  have written : ∃ next, [Token.e, .ee].foldlM (writeToken p fresh) ([], party) =
      .ok ([] ++ (p.publicKey fresh).toBytes, next) := by
    simp [writeToken, secret, heard, bind, Except.bind, pure, Except.pure]
  obtain ⟨next, written⟩ := written
  have head : ([] ++ (p.publicKey fresh).toBytes : Bytes).length = keyLength :=
    Bytes32.length_toBytes _
  constructor
  · rintro ⟨message, party', answer⟩
    obtain ⟨tokens', head', next', -, tokensEq, writtenEq, fits, -, -⟩ := write_ok_iff.mp answer
    obtain rfl := Option.some.inj (tokens.symm.trans tokensEq)
    obtain ⟨rfl, rfl⟩ := Prod.mk.inj (Except.ok.inj (written.symm.trans writtenEq))
    rwa [head] at fits
  · intro fits
    rw [← head] at fits
    exact ⟨_, _, write_ok_iff.mpr ⟨_, _, _, turn, tokens, written, fits, rfl, rfl⟩⟩

theorem length_messages (pattern : Pattern) : pattern.messages.length = 2 := by
  cases pattern <;> rfl

theorem finish_isOk (p : Primitives) (mode : NonceMode) (done : party.position = 2) :
    ∃ finished, party.finish p mode = .ok finished := by
  refine ⟨_, if_neg ?_⟩
  rw [done, length_messages]
  exact Nat.lt_irrefl 2

/-- What one end seals with, the other opens with, and both know the handshake by one digest. -/
theorem Mirrors.finish (mirrors : Mirrors p one other) (initiator : other.role = .initiator)
    (done : one.position = 2) (mode : NonceMode) :
    ∃ hash up down, one.finish p mode = .ok ⟨.new down up mode, hash, one.remoteStatic⟩ ∧
      other.finish p mode = .ok ⟨.new up down mode, hash, other.remoteStatic⟩ := by
  have responder : one.role = .responder := by
    rcases mirrors.roles with ⟨-, role, -⟩ | ⟨role, -, -⟩
    · rw [initiator] at role
      cases role
    · exact role
  have doneOther : other.position = 2 := mirrors.position.trans done
  refine ⟨one.symmetric.hash, (one.symmetric.split p).1, (one.symmetric.split p).2, ?_, ?_⟩
  · simp [Party.finish, length_messages, done, responder]
  · simp [Party.finish, length_messages, doneOther, initiator, mirrors.symmetric]

end Party

open Party

variable {pattern : Pattern} {mode : NonceMode} {known key : Option Bytes32}
variable {i : Initiator} {r : Responder} {e fresh : Bytes32}

/-- Both ends between request and response. The initiator has sent the ephemeral key `e`, and the
responder has the static key `key`, if it has one. -/
structure Engaged (p : Primitives) (e : Bytes32) (key : Option Bytes32) (i : Initiator)
    (r : Responder) : Prop where
  mirrors : Mirrors p r.party i.party
  mode : r.mode = i.mode
  position : r.party.position = 1
  waits : i.party.myTurn = false
  answers : r.party.myTurn = true
  initiator : i.party.role = .initiator
  sent : i.party.ephemeral = some e
  unheard : i.party.remoteEphemeral = none
  unnamed : i.party.localStatic = none
  static : ∀ k, r.party.localStatic = some k → key = some k

/-- Two fresh parties mirror each other if the initiator knows the responder's static key. -/
theorem mirrors_fresh {one other : Party} (initiator : Party.initiator p pattern known = .ok one)
    (responder : Party.responder p pattern key = .ok other)
    (pinned : pattern.usesResponderStatic = true → known = key.map p.publicKey) :
    Mirrors p one other ∧ one.role = .initiator ∧ one.position = 0 ∧
      (∀ a, ¬ one.Holds a) ∧ other.myTurn = false ∧
      ∀ k, other.Holds k → other.localStatic = some k ∧ key = some k := by
  cases pattern with
  | nn =>
    obtain rfl := Except.ok.inj initiator
    obtain rfl := Except.ok.inj responder
    exact ⟨⟨rfl, rfl, rfl, rfl, rfl, .inl ⟨rfl, rfl, rfl⟩⟩, rfl, rfl, by simp [Holds], rfl,
      by simp [Holds]⟩
  | nk =>
    cases key with
    | none => simp [Party.responder, Pattern.usesResponderStatic] at responder
    | some k =>
      obtain rfl := pinned rfl
      obtain rfl := Except.ok.inj initiator
      obtain rfl := Except.ok.inj responder
      exact ⟨⟨rfl, rfl, rfl, rfl, rfl, .inl ⟨rfl, rfl, rfl⟩⟩, rfl, rfl, by simp [Holds], rfl,
        by simp [Holds]⟩

theorem Initiator.new_ok (made : Initiator.new p pattern known mode = .ok i) :
    Party.initiator p pattern known = .ok i.party ∧ i.mode = mode := by
  obtain ⟨party, started, done⟩ := bind_eq_ok_iff.mp made
  obtain rfl := Except.ok.inj done
  exact ⟨started, rfl⟩

theorem Responder.new_ok (made : Responder.new p pattern key mode = .ok r) :
    Party.responder p pattern key = .ok r.party ∧ r.mode = mode := by
  obtain ⟨party, started, done⟩ := bind_eq_ok_iff.mp made
  obtain rfl := Except.ok.inj done
  exact ⟨started, rfl⟩

/-- Both ends can be made if the initiator knows the responder's static key. A pattern without
static keys passes over keys that are supplied. -/
theorem new_isOk (p : Primitives) (pattern : Pattern) (mode : NonceMode)
    (pinned : pattern.usesResponderStatic = true →
      ∃ k, key = some k ∧ known = some (p.publicKey k)) :
    ∃ i r, Initiator.new p pattern known mode = .ok i ∧
      Responder.new p pattern key mode = .ok r ∧
      i.party.remoteStatic = if pattern.usesResponderStatic then known else none := by
  cases pattern with
  | nn => exact ⟨_, _, rfl, rfl, rfl⟩
  | nk =>
    obtain ⟨k, rfl, rfl⟩ := pinned rfl
    exact ⟨_, _, rfl, rfl, rfl⟩

/-! ### The four calls, as steps of the parties -/

theorem Initiator.writeRequest_ok_iff {i' : Initiator} {payload message : Bytes} :
    i.writeRequest p fresh payload = .ok (message, i') ↔
      i.party.write p fresh payload = .ok (message, i'.party) ∧
        i' = { i with party := i'.party } := by
  rw [Initiator.writeRequest, bind_eq_ok_iff]
  cases i.party.write p fresh payload with
  | error fault =>
    constructor
    · rintro ⟨_, ⟨⟩, -⟩
    · rintro ⟨⟨⟩, -⟩
  | ok state =>
    constructor
    · rintro ⟨_, ⟨⟩, ⟨⟩⟩
      exact ⟨rfl, rfl⟩
    · rintro ⟨⟨⟩, same⟩
      exact ⟨_, rfl, congrArg (fun j => Except.ok (message, j)) same.symm⟩

theorem Responder.readRequest_ok_iff {r' : Responder} {payload message : Bytes} :
    r.readRequest p message = .ok (payload, r') ↔
      r.party.read p message = .ok (payload, r'.party) ∧ r' = { r with party := r'.party } := by
  rw [Responder.readRequest, bind_eq_ok_iff]
  cases r.party.read p message with
  | error fault =>
    constructor
    · rintro ⟨_, ⟨⟩, -⟩
    · rintro ⟨⟨⟩, -⟩
  | ok state =>
    constructor
    · rintro ⟨_, ⟨⟩, ⟨⟩⟩
      exact ⟨rfl, rfl⟩
    · rintro ⟨⟨⟩, same⟩
      exact ⟨_, rfl, congrArg (fun s => Except.ok (payload, s)) same.symm⟩

/-- A response is a message that finishes the handshake. -/
theorem Responder.writeResponse_ok_iff {payload message : Bytes} {finished : Finished} :
    r.writeResponse p fresh payload = .ok (message, finished) ↔
      ∃ party, r.party.write p fresh payload = .ok (message, party) ∧
        party.finish p r.mode = .ok finished := by
  simp only [Responder.writeResponse, bind_eq_ok_iff]
  cases r.party.write p fresh payload with
  | error fault =>
    constructor
    · rintro ⟨_, ⟨⟩, -⟩
    · rintro ⟨_, ⟨⟩, -⟩
  | ok state =>
    constructor
    · rintro ⟨_, ⟨⟩, _, done, ⟨⟩⟩
      exact ⟨state.2, rfl, done⟩
    · rintro ⟨_, ⟨⟩, done⟩
      exact ⟨_, rfl, _, done, rfl⟩

/-- What a response is read as finishes it, too. -/
theorem Initiator.readResponse_ok_iff {payload message : Bytes} {finished : Finished} :
    i.readResponse p message = .ok (payload, finished) ↔
      ∃ party, i.party.read p message = .ok (payload, party) ∧
        party.finish p i.mode = .ok finished := by
  simp only [Initiator.readResponse, bind_eq_ok_iff]
  cases i.party.read p message with
  | error fault =>
    constructor
    · rintro ⟨_, ⟨⟩, -⟩
    · rintro ⟨_, ⟨⟩, -⟩
  | ok state =>
    constructor
    · rintro ⟨_, ⟨⟩, _, done, ⟨⟩⟩
      exact ⟨state.2, rfl, done⟩
    · rintro ⟨_, ⟨⟩, done⟩
      exact ⟨_, rfl, _, done, rfl⟩

/-- An honest request is read, and its payload arrives. Under a pattern with a static key the
initiator has to know that of the responder. -/
theorem request_agrees (sealing : p.Sealing)
    (initiator : Initiator.new p pattern known mode = .ok i)
    (responder : Responder.new p pattern key mode = .ok r)
    (pinned : pattern.usesResponderStatic = true → known = key.map p.publicKey)
    (agree : ∀ k, key = some k → p.Agree e k) {payload : Bytes}
    (fits : keyLength + payload.length + tagLength ≤ maxMessage) :
    ∃ message i' r', i.writeRequest p e payload = .ok (message, i') ∧
      r.readRequest p message = .ok (payload, r') ∧ Engaged p e key i' r' ∧ i'.mode = mode := by
  obtain ⟨freshOne, modeOne⟩ := Initiator.new_ok initiator
  obtain ⟨freshOther, modeOther⟩ := Responder.new_ok responder
  obtain ⟨mirrors, role, position, holdsOne, turn, holdsOther⟩ :=
    mirrors_fresh freshOne freshOther pinned
  obtain ⟨message, one', written, sent, unheard, unnamed⟩ := request_written freshOne e fits
  have agreeAll : ∀ a b, i.party.Holds a ∨ a = e → r.party.Holds b → p.Agree a b := by
    rintro a b (held | rfl) hb
    · exact absurd held (holdsOne a)
    · exact agree b (holdsOther b hb).2
  obtain ⟨other', read, mirrors', keptOne, keptOther, position', turn'⟩ :=
    read_of_write sealing mirrors turn agreeAll written
  have waits : one'.myTurn = false := by
    obtain ⟨_, _, _, _, _, _, _, _, rfl⟩ := write_ok_iff.mp written
    rfl
  refine ⟨message, ⟨one', i.mode⟩, ⟨other', r.mode⟩, ?_, ?_, ?_, modeOne⟩
  · exact Initiator.writeRequest_ok_iff.mpr ⟨written, rfl⟩
  · exact Responder.readRequest_ok_iff.mpr ⟨read, rfl⟩
  · exact {
      mirrors := mirrors'.symm
      mode := modeOther.trans modeOne.symm
      position := by rw [mirrors'.position, position', position]
      waits := waits
      answers := turn'
      initiator := keptOne.role.trans role
      sent := sent
      unheard := unheard
      unnamed := unnamed
      static := fun k static =>
        (holdsOther k (.inr (keptOther.localStatic.symm.trans static))).2 }

/-- The response to an honest request is written exactly if its payload fits. -/
theorem response_ok_iff (engaged : Engaged p e key i r) (fresh : Bytes32) {payload : Bytes} :
    (∃ message finished, r.writeResponse p fresh payload = .ok (message, finished)) ↔
      keyLength + payload.length + tagLength ≤ maxMessage := by
  have heard : r.party.remoteEphemeral = some (p.publicKey e) := by
    rw [engaged.mirrors.spoken, engaged.sent]
    rfl
  rw [← response_written_iff p fresh engaged.answers engaged.position heard]
  constructor
  · rintro ⟨message, finished, answer⟩
    obtain ⟨party, written, -⟩ := Responder.writeResponse_ok_iff.mp answer
    exact ⟨message, party, written⟩
  · rintro ⟨message, party', written⟩
    have position : party'.position = 2 := by
      obtain ⟨_, _, _, _, _, _, _, _, rfl⟩ := write_ok_iff.mp written
      exact congrArg (· + 1) engaged.position
    obtain ⟨finished, done⟩ := finish_isOk p r.mode position
    exact ⟨message, finished, Responder.writeResponse_ok_iff.mpr ⟨party', written, done⟩⟩

/-- An honest response is read. It completes both ends, and they agree. -/
theorem response_agrees (sealing : p.Sealing) (engaged : Engaged p e key i r)
    (agreeFresh : p.Agree fresh e) (agreeStatic : ∀ k, key = some k → p.Agree k e)
    {payload : Bytes} (fits : keyLength + payload.length + tagLength ≤ maxMessage) :
    ∃ message hash up down,
      r.writeResponse p fresh payload =
        .ok (message, ⟨.new down up i.mode, hash, r.party.remoteStatic⟩) ∧
      i.readResponse p message =
        .ok (payload, ⟨.new up down i.mode, hash, i.party.remoteStatic⟩) := by
  have heard : r.party.remoteEphemeral = some (p.publicKey e) := by
    rw [engaged.mirrors.spoken, engaged.sent]
    rfl
  obtain ⟨message, r', written⟩ :=
    (response_written_iff p fresh engaged.answers engaged.position heard).mpr fits
  have agree : ∀ a b, r.party.Holds a ∨ a = fresh → i.party.Holds b → p.Agree a b := by
    rintro a b held (ephemeral | static)
    · obtain rfl : e = b := Option.some.inj (engaged.sent.symm.trans ephemeral)
      rcases held with (ephemeral | static) | rfl
      · have := engaged.mirrors.heard
        rw [engaged.unheard, ephemeral] at this
        cases this
      · exact agreeStatic a (engaged.static a static)
      · exact agreeFresh
    · rw [engaged.unnamed] at static
      cases static
  obtain ⟨i', read, mirrors, keptWriter, keptReader, position, -⟩ :=
    read_of_write sealing engaged.mirrors engaged.waits agree written
  obtain ⟨hash, up, down, doneWriter, doneReader⟩ :=
    mirrors.finish (keptReader.role.trans engaged.initiator)
      (position.trans (congrArg (· + 1) engaged.position)) i.mode
  rw [keptWriter.remoteStatic] at doneWriter
  rw [keptReader.remoteStatic] at doneReader
  rw [← engaged.mode] at doneWriter
  refine ⟨message, hash, up, down, ?_, ?_⟩
  · rw [← engaged.mode]
    exact Responder.writeResponse_ok_iff.mpr ⟨r', written, doneWriter⟩
  · exact Initiator.readResponse_ok_iff.mpr ⟨i', read, doneReader⟩

end Noise

end SecureChannel
