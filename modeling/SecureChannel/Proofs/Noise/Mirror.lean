import SecureChannel.Noise.Handshake
import SecureChannel.Proofs.Checked
import SecureChannel.Proofs.Crypto.Sealing

/-!
# Two parties that follow the same messages

`Mirrors` relates the two parties of a handshake after the same messages: their symmetric states are
equal, and each knows the public halves of the keys that the other has used. It says nothing about
how far they are, so one step of it covers every message of every pattern: what one party writes the
other reads, payload and all, and they mirror each other again.
-/

namespace SecureChannel.Noise

variable {p : Primitives}

namespace Symmetric

/-- Opening what was sealed with the same state gives the payload back, and the states stay
equal. -/
theorem decryptAndHash_encryptAndHash (sealing : p.Sealing) (s : Symmetric) (payload : Bytes) :
    s.decryptAndHash p (s.encryptAndHash p payload).1 =
      some (payload, (s.encryptAndHash p payload).2) := by
  rw [encryptAndHash, decryptAndHash]
  cases s.key with
  | none => rfl
  | some key => simp [sealing.decrypt_encrypt]

theorem length_encryptAndHash_le (sealing : p.Sealing) (s : Symmetric) (payload : Bytes) :
    (s.encryptAndHash p payload).1.length ≤ payload.length + Party.tagLength := by
  rw [encryptAndHash]
  cases s.key with
  | none => exact Nat.le_add_right _ _
  | some key => exact Nat.le_of_eq (sealing.length_encrypt ..)

end Symmetric

namespace Party

/-- A party holds the private key that it has sent the public half of, and its static one. -/
def Holds (party : Party) (key : Bytes32) : Prop :=
  party.ephemeral = some key ∨ party.localStatic = some key

/-- Two parties have processed the same messages from the two ends. -/
structure Mirrors (p : Primitives) (one other : Party) : Prop where
  pattern : other.pattern = one.pattern
  symmetric : other.symmetric = one.symmetric
  position : other.position = one.position
  heard : other.remoteEphemeral = one.ephemeral.map p.publicKey
  spoken : one.remoteEphemeral = other.ephemeral.map p.publicKey
  /-- The initiator knows the responder's static key. -/
  roles :
    (one.role = .initiator ∧ other.role = .responder ∧
        one.remoteStatic = other.localStatic.map p.publicKey) ∨
      (one.role = .responder ∧ other.role = .initiator ∧
        other.remoteStatic = one.localStatic.map p.publicKey)

variable {one other one' : Party}

theorem Mirrors.symm (mirrors : Mirrors p one other) : Mirrors p other one where
  pattern := mirrors.pattern.symm
  symmetric := mirrors.symmetric.symm
  position := mirrors.position.symm
  heard := mirrors.spoken
  spoken := mirrors.heard
  roles := by
    rcases mirrors.roles with ⟨first, second, known⟩ | ⟨first, second, known⟩
    · exact .inr ⟨second, first, known⟩
    · exact .inl ⟨second, first, known⟩

/-- Both parties agree on every secret, or both miss a key for it. -/
theorem Mirrors.secret_eq (mirrors : Mirrors p one other)
    (agree : ∀ a b, one.Holds a → other.Holds b → p.Agree a b) (token : Token) :
    other.secret p token = one.secret p token := by
  cases token with
  | e => rfl
  | ee =>
    simp only [secret]
    rw [mirrors.heard, mirrors.spoken]
    cases hOne : one.ephemeral with
    | none => cases other.ephemeral <;> rfl
    | some a =>
      cases hOther : other.ephemeral with
      | none => rfl
      | some b => exact congrArg Except.ok (agree a b (.inl hOne) (.inl hOther)).symm
  | es =>
    simp only [secret]
    rcases mirrors.roles with ⟨first, second, known⟩ | ⟨first, second, known⟩
    · rw [first, second, known, mirrors.heard]
      cases hOne : one.ephemeral with
      | none => cases other.localStatic <;> rfl
      | some a =>
        cases hOther : other.localStatic with
        | none => rfl
        | some b => exact congrArg Except.ok (agree a b (.inl hOne) (.inr hOther)).symm
    · rw [first, second, known, mirrors.spoken]
      cases hOther : other.ephemeral with
      | none => cases one.localStatic <;> rfl
      | some b =>
        cases hOne : one.localStatic with
        | none => rfl
        | some a => exact congrArg Except.ok (agree a b (.inr hOne) (.inl hOther)).symm

/-- A token other than the ephemeral key adds nothing to a message; it mixes a secret in. -/
theorem writeToken_of_ne_e {fresh : Bytes32} {out out' : Bytes} {token : Token} (ne : token ≠ .e)
    (written : writeToken p fresh (out, one) token = .ok (out', one')) :
    ∃ shared, one.secret p token = .ok shared ∧ out' = out ∧
      one' = { one with symmetric := one.symmetric.mixKey p shared } := by
  have mixed : writeToken p fresh (out, one) token = (do
      let shared ← one.secret p token
      return (out, { one with symmetric := one.symmetric.mixKey p shared })) := by
    cases token with
    | e => exact absurd rfl ne
    | ee => rfl
    | es => rfl
  rw [mixed, bind_eq_ok_iff] at written
  obtain ⟨shared, known, made⟩ := written
  obtain ⟨rfl, rfl⟩ := Prod.mk.inj (Except.ok.inj made)
  exact ⟨shared, known, rfl, rfl⟩

/-- Such a token takes nothing off a message that is read. -/
theorem readToken_of_ne_e {rest : Bytes} {token : Token} (ne : token ≠ .e) {shared : Bytes32}
    (known : other.secret p token = .ok shared) :
    readToken p (rest, other) token =
      .ok (rest, { other with symmetric := other.symmetric.mixKey p shared }) := by
  cases token with
  | e => exact absurd rfl ne
  | ee | es => simp [readToken, known, bind, Except.bind, pure, Except.pure]

/-- What one party writes for a token, the other reads off the front of the message. -/
theorem readToken_of_writeToken {fresh : Bytes32} {out out' : Bytes} {token : Token}
    (mirrors : Mirrors p one other)
    (agree : ∀ a b, one.Holds a → other.Holds b → p.Agree a b)
    (written : writeToken p fresh (out, one) token = .ok (out', one')) :
    ∃ head other', out' = out ++ head ∧
      (∀ rest, readToken p (head ++ rest, other) token = .ok (rest, other')) ∧
      Mirrors p one' other' ∧ (∀ a, one'.Holds a → one.Holds a ∨ a = fresh) ∧
      (∀ b, other'.Holds b → other.Holds b) := by
  by_cases ephemeral : token = .e
  · subst ephemeral
    obtain ⟨rfl, rfl⟩ : out ++ (p.publicKey fresh).toBytes = out' ∧
        { one with
          symmetric := one.symmetric.mixHash p (p.publicKey fresh).toBytes
          ephemeral := some fresh } = one' := by
      simpa [writeToken] using written
    refine ⟨(p.publicKey fresh).toBytes, { other with
        symmetric := other.symmetric.mixHash p (p.publicKey fresh).toBytes
        remoteEphemeral := some (p.publicKey fresh) }, rfl, ?_, ?_, ?_, fun b => id⟩
    · intro rest
      have front : ((p.publicKey fresh).toBytes ++ rest).take keyLength =
          (p.publicKey fresh).toBytes := List.take_left' (Bytes32.length_toBytes _)
      have behind : ((p.publicKey fresh).toBytes ++ rest).drop keyLength = rest :=
        List.drop_left' (Bytes32.length_toBytes _)
      simp [readToken, front, behind]
    · exact { mirrors with
        symmetric := by simp only [mirrors.symmetric]
        heard := rfl }
    · rintro a (ephemeral | static)
      · exact .inr (Option.some.inj ephemeral).symm
      · exact .inl (.inr static)
  · obtain ⟨shared, known, rfl, rfl⟩ := writeToken_of_ne_e ephemeral written
    have known' : other.secret p token = .ok shared := (mirrors.secret_eq agree token).trans known
    refine ⟨[], { other with symmetric := other.symmetric.mixKey p shared }, by simp, ?_, ?_,
      fun a => .inl, fun b => id⟩
    · intro rest
      exact readToken_of_ne_e ephemeral known'
    · exact { mirrors with symmetric := by simp only [mirrors.symmetric] }

end Party

end SecureChannel.Noise
