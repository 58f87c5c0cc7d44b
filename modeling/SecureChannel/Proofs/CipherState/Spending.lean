import SecureChannel.Proofs.CipherState.InStep
import SecureChannel.Proofs.CipherState.Outcomes
import SecureChannel.Proofs.ReplayWindow.Freshness

/-!
# Every number is spent once

A receiving direction opens a ciphertext under a number: under its own counter, or under the number
that the ciphertext states. `unpack` gives that number together with the octets that are opened.
A number is `Spent` once the direction will not open anything under it again. Opening a ciphertext
spends its number, and nothing that happens to the direction afterwards gives the number back.

`Advances` is what can happen to a direction at all: its key and the way it numbers messages stay,
its counter does not fall, and what is spent remains so.
-/

namespace SecureChannel

/-- Whether ciphertexts carry their nonce in a mode. -/
def NonceMode.isExplicit (mode : NonceMode) : Bool := mode.window?.isSome

namespace CipherState

variable {p : Primitives} {s t u : CipherState} {ad plaintext ciphertext : Bytes} {n : UInt64}

/-- The number under which a ciphertext is opened, and the octets that are opened. -/
def unpack (s : CipherState) (ciphertext : Bytes) : UInt64 × Bytes :=
  if s.isExplicit then
    (Bytes.toUInt64 (ciphertext.take nonceLength), ciphertext.drop nonceLength)
  else (s.nonce, ciphertext)

/-- Where there is no window, a ciphertext has the number of the counter. -/
theorem unpack_of_implicit (noWindow : s.window = none) (ciphertext : Bytes) :
    s.unpack ciphertext = (s.nonce, ciphertext) := by
  simp [unpack, isExplicit, noWindow]

theorem unpack_of_explicit {w : ReplayWindow} (window : s.window = some w) (ciphertext : Bytes) :
    s.unpack ciphertext = (statedNumber ciphertext, ciphertext.drop nonceLength) := by
  simp [unpack, isExplicit, window, statedNumber]

/-- Nothing will be opened under the number again. -/
def Spent (s : CipherState) (n : UInt64) : Prop :=
  match s.window with
  | none => n < s.nonce
  | some w => w.fresh n = false

structure Advances (s t : CipherState) : Prop where
  key : t.key = s.key
  mode : t.isExplicit = s.isExplicit
  nonce : s.nonce ≤ t.nonce
  spent : ∀ n, s.Spent n → t.Spent n

theorem Advances.refl (s : CipherState) : s.Advances s :=
  ⟨rfl, rfl, UInt64.le_refl _, fun _ spent => spent⟩

theorem Advances.trans (first : s.Advances t) (second : t.Advances u) : s.Advances u :=
  ⟨second.key.trans first.key, second.mode.trans first.mode,
    UInt64.le_trans first.nonce second.nonce, fun n spent => second.spent n (first.spent n spent)⟩

/-- Two directions that number messages in the same way open the same octets of a ciphertext. -/
theorem unpack_octets_congr (mode : t.isExplicit = s.isExplicit) (ciphertext : Bytes) :
    (t.unpack ciphertext).2 = (s.unpack ciphertext).2 := by
  rw [unpack, unpack, mode]
  split <;> rfl

theorem le_succ_nonce (below : n ≠ lastNonce) : n ≤ n + 1 := by
  rw [UInt64.le_iff_toNat_le, toNat_succ_nonce below]
  exact Nat.le_succ _

/-- A counter that moves on spends its last value, and none is given back. -/
theorem advances_count (below : s.nonce ≠ lastNonce) :
    s.Advances { s with nonce := s.nonce + 1 } := by
  refine ⟨rfl, rfl, le_succ_nonce below, ?_⟩
  intro n spent
  simp only [Spent] at spent ⊢
  split
  · next noWindow =>
    simp only [noWindow] at spent
    exact UInt64.lt_of_lt_of_le spent (le_succ_nonce below)
  · next w window =>
    simpa only [window] using spent

/-- What was sealed carries the sender's counter. -/
structure Sealed (p : Primitives) (s : CipherState) (ad plaintext ciphertext : Bytes)
    (t : CipherState) : Prop where
  unpack : s.unpack ciphertext = (s.nonce, p.encrypt s.key s.nonce ad plaintext)
  below : s.nonce ≠ lastNonce
  advances : s.Advances t

theorem sealed_of_encrypt (sent : s.encrypt p ad plaintext = .ok (ciphertext, t)) :
    Sealed p s ad plaintext ciphertext t := by
  obtain ⟨below, -, rfl, rfl⟩ := encrypt_ok_iff.mp sent
  refine ⟨?_, below, advances_count below⟩
  rw [CipherState.unpack]
  split
  · change (statedNumber _, _) = _
    rw [statedNumber_append, drop_nonceLength_append]
  · rfl

/-- What was opened was authentic under a number that was not spent before and is now. -/
structure Opened (p : Primitives) (s : CipherState) (ad ciphertext plaintext : Bytes)
    (t : CipherState) : Prop where
  authentic : p.decrypt s.key (s.unpack ciphertext).1 ad (s.unpack ciphertext).2 = some plaintext
  unspent : ¬ s.Spent (s.unpack ciphertext).1
  spends : t.Spent (s.unpack ciphertext).1
  advances : s.Advances t

theorem opened_of_decryptNext (noWindow : s.window = none)
    (opened : s.decryptNext p ad ciphertext = .ok (plaintext, t)) :
    Opened p s ad ciphertext plaintext t := by
  obtain ⟨-, below, ⟨-, authentic⟩, rfl⟩ := decryptNext_ok_iff.mp opened
  have unpacked := unpack_of_implicit noWindow ciphertext
  have counts : s.nonce < s.nonce + 1 := by
    rw [UInt64.lt_iff_toNat_lt, toNat_succ_nonce below]
    exact Nat.lt_succ_self _
  refine ⟨?_, ?_, ?_, advances_count below⟩
  · rwa [unpacked]
  · rw [unpacked]
    simp [Spent, noWindow]
  · rw [unpacked]
    simpa [Spent, noWindow] using counts

theorem opened_of_decryptStated {w : ReplayWindow} (window : s.window = some w)
    (opened : s.decryptStated p w ad ciphertext = .ok (plaintext, t)) :
    Opened p s ad ciphertext plaintext t := by
  obtain ⟨-, -, isFresh, ⟨-, authentic⟩, rfl⟩ := decryptStated_ok_iff.mp opened
  have unpacked := unpack_of_explicit window ciphertext
  refine ⟨?_, ?_, ?_, ⟨rfl, by simp [isExplicit, window], UInt64.le_refl _, ?_⟩⟩
  · rwa [unpacked]
  · rw [unpacked]
    simp [Spent, window, isFresh]
  · rw [unpacked]
    exact ReplayWindow.fresh_mark_self isFresh
  · intro n spent
    simp only [Spent, window] at spent
    exact ReplayWindow.fresh_mark_of_not_fresh _ spent

theorem opened_of_decrypt (opened : s.decrypt p ad ciphertext = .ok (plaintext, t)) :
    Opened p s ad ciphertext plaintext t := by
  rw [decrypt] at opened
  split at opened
  · next noWindow => exact opened_of_decryptNext noWindow opened
  · next w window => exact opened_of_decryptStated window opened

end CipherState

/-- Both directions number messages in the way of a mode. -/
structure CipherPair.InMode (mode : NonceMode) (pair : CipherPair) : Prop where
  encrypter : pair.encrypter.isExplicit = mode.isExplicit
  decrypter : pair.decrypter.isExplicit = mode.isExplicit

theorem CipherPair.inMode_new (send receive : Bytes32) (mode : NonceMode) :
    (CipherPair.new send receive mode).InMode mode := ⟨rfl, rfl⟩

end SecureChannel
