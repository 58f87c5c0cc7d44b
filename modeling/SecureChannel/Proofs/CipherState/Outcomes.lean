import SecureChannel.CipherState
import SecureChannel.Proofs.Bytes.Numbers

/-!
# When a ciphertext is opened

Each of the two ways to open a ciphertext succeeds under conditions that do not depend on one
another: the ciphertext is long enough, its number may be used, and the cipher opens the rest. One
lemma for each way says exactly when it succeeds and what becomes of the direction, and one says
which condition the error of a refusal stands for.
-/

namespace SecureChannel.CipherState

variable {p : Primitives} {s t : CipherState} {w : ReplayWindow} {n : UInt64} {key : Bytes32}
variable {ad octets ciphertext plaintext : Bytes} {e : CipherError}

/-- The number that a ciphertext with an explicit nonce states. -/
def statedNumber (ciphertext : Bytes) : UInt64 :=
  Bytes.toUInt64 (ciphertext.take nonceLength)

theorem statedNumber_append (n : UInt64) (octets : Bytes) :
    statedNumber (Bytes.ofUInt64 n ++ octets) = n := by
  rw [statedNumber, nonceLength, List.take_left' (Bytes.length_ofUInt64 _),
    Bytes.toUInt64_ofUInt64]

theorem drop_nonceLength_append (n : UInt64) (octets : Bytes) :
    (Bytes.ofUInt64 n ++ octets).drop nonceLength = octets :=
  List.drop_left' (Bytes.length_ofUInt64 _)

/-- The cipher opens the octets: they are within the reach of its block counter, and authentic under
the key, the number and the associated data. -/
def Opens (p : Primitives) (key : Bytes32) (n : UInt64) (ad octets plaintext : Bytes) : Prop :=
  ¬ tooLong (octets.drop tagLength) ∧ p.decrypt key n ad octets = some plaintext

theorem openAt_ok_iff : s.openAt p n ad octets = .ok plaintext ↔
    Opens p s.key n ad octets plaintext := by
  rw [openAt, Opens]
  split
  · next long => simp [long]
  · next short =>
    split
    · next text opened => simp [short, opened]
    · next forged => simp [forged]

/-- The cipher gives no other reason for a refusal. -/
theorem openAt_error (refused : s.openAt p n ad octets = .error e) :
    e = .authenticationFailure := by
  rw [openAt] at refused
  split at refused
  · exact (Except.error.inj refused).symm
  · split at refused
    · cases refused
    · exact (Except.error.inj refused).symm

theorem decrypt_nil (p : Primitives) (s : CipherState) (ad : Bytes) :
    s.decrypt p ad [] = .error .authenticationFailure := by
  rw [decrypt]
  cases s.window <;> rfl

theorem decrypt_of_implicit (noWindow : s.window = none) :
    s.decrypt p ad ciphertext = s.decryptNext p ad ciphertext := by
  rw [decrypt, noWindow]

theorem decrypt_of_explicit (window : s.window = some w) :
    s.decrypt p ad ciphertext = s.decryptStated p w ad ciphertext := by
  rw [decrypt, window]

theorem decryptNext_ok_iff : s.decryptNext p ad ciphertext = .ok (plaintext, t) ↔
    tagLength ≤ ciphertext.length ∧ s.nonce ≠ lastNonce ∧
      Opens p s.key s.nonce ad ciphertext plaintext ∧ t = { s with nonce := s.nonce + 1 } := by
  simp only [decryptNext, bind, Except.bind, pure, Except.pure, throw, throwThe,
    MonadExceptOf.throw, ← openAt_ok_iff]
  split
  · next short => simp [Nat.not_le.mpr short]
  · next enough =>
    split
    · next last => simp [last]
    · next below =>
      cases s.openAt p s.nonce ad ciphertext with
      | error e => simp
      | ok text => simp [Nat.not_lt.mp enough, below, eq_comm]

theorem decryptStated_ok_iff : s.decryptStated p w ad ciphertext = .ok (plaintext, t) ↔
    nonceLength + tagLength ≤ ciphertext.length ∧ statedNumber ciphertext ≠ lastNonce ∧
      w.fresh (statedNumber ciphertext) = true ∧
      Opens p s.key (statedNumber ciphertext) ad (ciphertext.drop nonceLength) plaintext ∧
      t = { s with window := some (w.mark (statedNumber ciphertext)) } := by
  have stated : Bytes.toUInt64 (ciphertext.take nonceLength) = statedNumber ciphertext := rfl
  simp only [decryptStated, bind, Except.bind, pure, Except.pure, throw, throwThe,
    MonadExceptOf.throw, ← openAt_ok_iff, stated]
  split
  · next short => simp [Nat.not_le.mpr short]
  · next enough =>
    split
    · next used => rcases used with last | stale <;> simp [*]
    · next usable =>
      rw [not_or, Bool.not_eq_false] at usable
      cases s.openAt p (statedNumber ciphertext) ad (ciphertext.drop nonceLength) with
      | error e => simp
      | ok text =>
        simp [Nat.not_lt.mp enough, usable, ReplayWindow.accept, eq_comm]

/-- A number that may not be used is named; every other reason for a refusal is the same. -/
theorem decryptStated_error (refused : s.decryptStated p w ad ciphertext = .error e) :
    e = if nonceLength + tagLength ≤ ciphertext.length ∧
          (statedNumber ciphertext = lastNonce ∨ w.fresh (statedNumber ciphertext) = false) then
        .replay (statedNumber ciphertext)
      else .authenticationFailure := by
  have stated : Bytes.toUInt64 (ciphertext.take nonceLength) = statedNumber ciphertext := rfl
  simp only [decryptStated, bind, Except.bind, pure, Except.pure, throw, throwThe,
    MonadExceptOf.throw, stated] at refused
  split at refused
  · next short =>
    rw [if_neg fun named => Nat.not_le.mpr short named.1]
    exact (Except.error.inj refused).symm
  · next enough =>
    split at refused
    · next used =>
      rw [if_pos ⟨Nat.not_lt.mp enough, used⟩]
      exact (Except.error.inj refused).symm
    · next usable =>
      rw [if_neg fun named => usable named.2]
      split at refused
      · next fault opened =>
        cases refused
        exact openAt_error opened
      · cases refused

end SecureChannel.CipherState
