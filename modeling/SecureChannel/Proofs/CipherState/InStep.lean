import SecureChannel.Proofs.CipherState.Outcomes
import SecureChannel.Proofs.Crypto.Sealing

/-!
# Directions that are in step

A sender and its receiver are in step if the receiver can open whatever the sender seals next.
Under implicit nonces they count the same. Under explicit ones the receiver has accepted nothing at
or above the sender's counter, so that the next number is fresh. A message that was sealed and then
opened leaves both in step again, so a direction in which every message arrives never breaks. Under
explicit nonces one that loses messages does not break either.
-/

namespace SecureChannel

variable {p : Primitives}

namespace CipherState

variable {sender sender' receiver : CipherState} {ad plaintext ciphertext : Bytes}

/-- The receiver has accepted nothing that the sender has not sent. -/
structure InStep (sender receiver : CipherState) : Prop where
  key : receiver.key = sender.key
  window :
    (sender.window = none ∧ receiver.window = none ∧ receiver.nonce = sender.nonce) ∨
      (sender.window.isSome ∧ ∃ w, receiver.window = some w ∧
        ∀ top, w.latest = some top → top < sender.nonce)

theorem inStep_new (key : Bytes32) (mode : NonceMode) : InStep (.new key mode) (.new key mode) where
  key := rfl
  window := by
    cases mode with
    | implicit => exact .inl ⟨rfl, rfl, rfl⟩
    | explicit size => exact .inr ⟨rfl, .ofSize size, rfl, by simp [ReplayWindow.ofSize]⟩

theorem nonce_new_ne_lastNonce (key : Bytes32) (mode : NonceMode) :
    (CipherState.new key mode).nonce ≠ lastNonce :=
  (by decide : (0 : UInt64) ≠ lastNonce)

/-- What it takes to seal, and what comes of it. -/
theorem encrypt_ok_iff : sender.encrypt p ad plaintext = .ok (ciphertext, sender') ↔
    sender.nonce ≠ lastNonce ∧ ¬ tooLong plaintext ∧
      (if sender.isExplicit then
          Bytes.ofUInt64 sender.nonce ++ p.encrypt sender.key sender.nonce ad plaintext
        else p.encrypt sender.key sender.nonce ad plaintext) = ciphertext ∧
      { sender with nonce := sender.nonce + 1 } = sender' := by
  rw [encrypt]
  split
  · simp_all
  · split <;> simp_all

/-- Below the last nonce every text of an admissible length is sealed. -/
theorem encrypt_isOk (p : Primitives) (ad : Bytes) (below : sender.nonce ≠ lastNonce)
    (short : ¬ tooLong plaintext) :
    ∃ ciphertext sender', sender.encrypt p ad plaintext = .ok (ciphertext, sender') :=
  ⟨_, _, encrypt_ok_iff.mpr ⟨below, short, rfl, rfl⟩⟩

/-- The counter does not wrap around where a message was sealed. -/
theorem toNat_succ_nonce {nonce : UInt64} (below : nonce ≠ lastNonce) :
    (nonce + 1).toNat = nonce.toNat + 1 := by
  have : nonce.toNat ≠ 2 ^ 64 - 1 := by
    intro last
    apply below
    rw [← UInt64.toNat_inj, last]
    rfl
  have := nonce.toNat_lt
  rw [UInt64.toNat_add]
  simp
  omega

theorem ne_lastNonce_of_le {a b : UInt64} (le : a ≤ b) (below : b ≠ lastNonce) : a ≠ lastNonce := by
  rintro rfl
  apply below
  have := b.toNat_lt
  rw [UInt64.le_iff_toNat_le] at le
  rw [← UInt64.toNat_inj]
  simp [lastNonce] at le ⊢
  omega

theorem openAt_encrypt (sealing : p.Sealing) {nonce : UInt64} (short : ¬ tooLong plaintext) :
    receiver.openAt p nonce ad (p.encrypt receiver.key nonce ad plaintext) = .ok plaintext := by
  have length : ((p.encrypt receiver.key nonce ad plaintext).drop tagLength).length =
      plaintext.length := by
    rw [List.length_drop, sealing.length_encrypt]
    exact Nat.add_sub_cancel ..
  have short' : ¬ tooLong ((p.encrypt receiver.key nonce ad plaintext).drop tagLength) := by
    rw [tooLong] at short ⊢
    rwa [length]
  rw [openAt, if_neg short', sealing.decrypt_encrypt]

/-- A number above everything that was accepted is fresh, and becomes the highest one. -/
theorem mark_above {w : ReplayWindow} {n : UInt64}
    (above : ∀ top, w.latest = some top → top < n) :
    w.fresh n = true ∧ (w.mark n).latest = some n := by
  cases latest : w.latest with
  | none => simp [ReplayWindow.fresh, ReplayWindow.mark, latest]
  | some top => simp [ReplayWindow.fresh, ReplayWindow.mark, latest, above top latest]

/-- What a sender seals, a receiver in step with it opens, and they stay in step. -/
theorem InStep.deliver (sealing : p.Sealing) (inStep : InStep sender receiver)
    (sent : sender.encrypt p ad plaintext = .ok (ciphertext, sender')) :
    ∃ receiver', receiver.decrypt p ad ciphertext = .ok (plaintext, receiver') ∧
      InStep sender' receiver' := by
  obtain ⟨below, short, rfl, rfl⟩ := encrypt_ok_iff.mp sent
  have opens : receiver.openAt p sender.nonce ad (p.encrypt sender.key sender.nonce ad plaintext) =
      .ok plaintext := by
    rw [← inStep.key]
    exact openAt_encrypt sealing short
  have length := sealing.length_encrypt sender.key sender.nonce ad plaintext
  rcases inStep.window with ⟨implicit, noWindow, same⟩ | ⟨explicit, w, window, above⟩
  · refine ⟨{ receiver with nonce := receiver.nonce + 1 }, ?_,
      ⟨inStep.key, .inl ⟨implicit, noWindow, congrArg (· + 1) same⟩⟩⟩
    rw [← same] at below opens length
    rw [isExplicit, implicit, decrypt_of_implicit noWindow, ← same]
    refine decryptNext_ok_iff.mpr ⟨?_, below, openAt_ok_iff.mp opens, rfl⟩
    exact length ▸ Nat.le_add_left ..
  · obtain ⟨fresh, accepted⟩ := mark_above above
    refine ⟨{ receiver with window := some (w.mark sender.nonce) }, ?_,
      ⟨inStep.key, .inr ⟨explicit, _, rfl, ?_⟩⟩⟩
    · rw [isExplicit, explicit, if_pos rfl, decrypt_of_explicit window]
      apply decryptStated_ok_iff.mpr
      rw [statedNumber_append, drop_nonceLength_append]
      refine ⟨?_, below, fresh, openAt_ok_iff.mp opens, rfl⟩
      rw [List.length_append, length, Bytes.length_ofUInt64]
      simp only [nonceLength, tagLength]
      omega
    · intro top latest
      rw [accepted, Option.some.injEq] at latest
      rw [← latest, UInt64.lt_iff_toNat_lt, toNat_succ_nonce below]
      exact Nat.lt_succ_self _

theorem InStep.isExplicit_eq (inStep : InStep sender receiver) :
    receiver.isExplicit = sender.isExplicit := by
  rcases inStep.window with ⟨implicit, noWindow, -⟩ | ⟨explicit, w, window, -⟩
  · rw [isExplicit, isExplicit, implicit, noWindow]
  · rw [isExplicit, isExplicit, explicit, window]
    rfl

/-- Under explicit nonces a message that is lost leaves both ends in step. -/
theorem InStep.skip (inStep : InStep sender receiver) (explicit : sender.isExplicit = true)
    (sent : sender.encrypt p ad plaintext = .ok (ciphertext, sender')) :
    InStep sender' receiver := by
  obtain ⟨below, -, -, rfl⟩ := encrypt_ok_iff.mp sent
  rcases inStep.window with ⟨implicit, -, -⟩ | ⟨stated, w, window, above⟩
  · rw [isExplicit, implicit] at explicit
    cases explicit
  · refine ⟨inStep.key, .inr ⟨stated, w, window, ?_⟩⟩
    intro top latest
    have less := UInt64.lt_iff_toNat_lt.mp (above top latest)
    rw [UInt64.lt_iff_toNat_lt, toNat_succ_nonce below]
    omega

/-- A fresh implicit direction refuses what was sealed second, if the cipher tells the two apart. -/
theorem refuses_second {key : Bytes32}
    (apart : p.decrypt key 0 ad (p.encrypt key 1 ad plaintext) = none)
    (sent : encrypt p { CipherState.new key .implicit with nonce := 0 + 1 } ad plaintext =
      .ok (ciphertext, sender')) :
    ∃ e, (CipherState.new key .implicit).decrypt p ad ciphertext = .error e := by
  obtain ⟨-, -, rfl, -⟩ := encrypt_ok_iff.mp sent
  cases opened : (CipherState.new key .implicit).decrypt p ad
    (p.encrypt key 1 ad plaintext) with
  | error e => exact ⟨e, opened⟩
  | ok result =>
    rw [decrypt_of_implicit rfl] at opened
    obtain ⟨-, -, opens, -⟩ := decryptNext_ok_iff.mp opened
    cases apart.symm.trans opens.2

/-- What a sealed message has beside its text is a tag, and its number if that is stated. -/
theorem length_of_encrypt (sealing : p.Sealing)
    (sent : sender.encrypt p ad plaintext = .ok (ciphertext, sender')) :
    ciphertext.length ≤ plaintext.length + nonceLength + tagLength := by
  obtain ⟨-, -, rfl, -⟩ := encrypt_ok_iff.mp sent
  have length := sealing.length_encrypt sender.key sender.nonce ad plaintext
  simp only [nonceLength, tagLength]
  split
  · rw [List.length_append, length, Bytes.length_ofUInt64]
    omega
  · omega

theorem le_length_of_encrypt (sealing : p.Sealing)
    (sent : sender.encrypt p ad plaintext = .ok (ciphertext, sender')) :
    plaintext.length ≤ ciphertext.length := by
  obtain ⟨-, -, rfl, -⟩ := encrypt_ok_iff.mp sent
  have length := sealing.length_encrypt sender.key sender.nonce ad plaintext
  split
  · rw [List.length_append, length]
    omega
  · omega

end CipherState

end SecureChannel
