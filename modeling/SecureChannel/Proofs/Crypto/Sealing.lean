import SecureChannel.Crypto.Primitives

/-!
# What the protocol needs of its primitives

Two laws are enough for a channel to work. What was sealed opens again under the same key, nonce and
associated data, and a seal adds sixteen octets. And two parties that hold one private key each, and
the public key of the other, agree on one secret.

The first law is proved here for the primitives that channels run with: masking a message twice
gives the message back, since every block of the key stream covers a whole block of the message. The
second is a fact about the curve. It is stated for two given keys, so that a theorem asks for it
only where it is used.
-/

namespace SecureChannel

namespace Bytes

/-- Spare fuel makes no difference to the division into blocks. -/
theorem blocks_go_of_length_le {size : Nat} (pos : 0 < size) {bytes : Bytes} {fuel : Nat}
    (enough : bytes.length ≤ fuel) : blocks.go size fuel bytes = blocks size bytes := by
  induction fuel using Nat.strongRecOn generalizing bytes with
  | ind fuel ih =>
    cases bytes with
    | nil => cases fuel <;> rfl
    | cons b rest =>
      cases fuel with
      | zero => simp at enough
      | succ fuel =>
        simp only [List.length_cons, Nat.add_le_add_iff_right] at enough
        have shorter : ((b :: rest).drop size).length ≤ rest.length := by
          simp only [List.length_drop, List.length_cons]
          omega
        show _ :: blocks.go size fuel _ = _ :: blocks.go size rest.length _
        rw [ih fuel (by omega) (by omega), ih rest.length (by omega) shorter]

theorem blocks_of_ne_nil {size : Nat} (pos : 0 < size) {bytes : Bytes} (nonempty : bytes ≠ []) :
    blocks size bytes = bytes.take size :: blocks size (bytes.drop size) := by
  cases bytes with
  | nil => exact absurd rfl nonempty
  | cons b rest =>
    show _ :: blocks.go size rest.length _ = _
    rw [blocks_go_of_length_le pos (by simp only [List.length_drop, List.length_cons]; omega)]

theorem length_flatMap_ofUInt32 (words : List UInt32) :
    (words.flatMap ofUInt32).length = 4 * words.length := by
  induction words with
  | nil => rfl
  | cons word words ih =>
    rw [List.flatMap_cons, List.length_append, ih, List.length_cons, ofUInt32]
    simp only [List.length_cons, List.length_nil]
    omega

end Bytes

namespace Crypto.ChaCha20

theorem length_block (key : Bytes32) (counter : UInt32) (nonce : Bytes) :
    (block key counter nonce).length = 64 := by
  rw [block, Bytes.length_flatMap_ofUInt32, List.length_zipWith, Vector.length_toList,
    Vector.length_toList]
  rfl

theorem apply_nil (key : Bytes32) (nonce : Bytes) (counter : UInt32) :
    apply key nonce counter [] = [] := rfl

theorem apply_of_ne_nil (key : Bytes32) (nonce : Bytes) (counter : UInt32) {message : Bytes}
    (nonempty : message ≠ []) :
    apply key nonce counter message =
      List.zipWith (· ^^^ ·) (message.take 64) (block key counter nonce) ++
        apply key nonce (counter + 1) (message.drop 64) := by
  rw [apply, Bytes.blocks_of_ne_nil (by decide) nonempty, mask, List.flatten_cons, apply]

theorem length_apply (key : Bytes32) (nonce : Bytes) (counter : UInt32) (message : Bytes) :
    (apply key nonce counter message).length = message.length := by
  induction h : message.length using Nat.strongRecOn generalizing message counter with
  | ind n ih =>
    by_cases empty : message = []
    · subst empty h
      rfl
    · have pos : 0 < message.length := List.length_pos_iff.mpr empty
      rw [apply_of_ne_nil key nonce counter empty, List.length_append, List.length_zipWith,
        length_block, List.length_take,
        ih (message.drop 64).length (by rw [List.length_drop]; omega) (counter + 1) _ rfl,
        List.length_drop]
      omega

theorem zipWith_xor_cancel {part stream : Bytes} (covered : part.length ≤ stream.length) :
    List.zipWith (· ^^^ ·) (List.zipWith (· ^^^ ·) part stream) stream = part := by
  induction part generalizing stream with
  | nil => rfl
  | cons b part ih =>
    cases stream with
    | nil => simp at covered
    | cons k stream =>
      simp only [List.length_cons, Nat.add_le_add_iff_right] at covered
      rw [List.zipWith_cons_cons, List.zipWith_cons_cons, ih covered, UInt8.xor_assoc,
        UInt8.xor_self, UInt8.xor_zero]

/-- Masking twice with the same key stream undoes it. -/
theorem apply_apply (key : Bytes32) (nonce : Bytes) (counter : UInt32) (message : Bytes) :
    apply key nonce counter (apply key nonce counter message) = message := by
  induction h : message.length using Nat.strongRecOn generalizing message counter with
  | ind n ih =>
    by_cases empty : message = []
    · subst empty
      rfl
    · have pos : 0 < message.length := List.length_pos_iff.mpr empty
      have rest := ih (message.drop 64).length (by rw [List.length_drop]; omega) (counter + 1)
        (message.drop 64) rfl
      have masked := apply_of_ne_nil key nonce counter empty
      have nonempty : apply key nonce counter message ≠ [] := by
        rw [← List.length_pos_iff, length_apply]
        exact pos
      have first : (List.zipWith (· ^^^ ·) (message.take 64) (block key counter nonce)).length =
          min 64 message.length := by
        rw [List.length_zipWith, length_block, List.length_take]
        omega
      have spent : message.length ≤ 64 → message.drop 64 = [] := List.drop_of_length_le
      rw [apply_of_ne_nil key nonce counter nonempty]
      -- The first block is whole, or nothing follows it.
      have taken : (apply key nonce counter message).take 64 =
          List.zipWith (· ^^^ ·) (message.take 64) (block key counter nonce) := by
        rw [masked]
        by_cases long : 64 ≤ message.length
        · exact List.take_left' (by omega)
        · rw [spent (by omega), apply_nil, List.append_nil]
          exact List.take_of_length_le (by omega)
      have dropped : (apply key nonce counter message).drop 64 =
          apply key nonce (counter + 1) (message.drop 64) := by
        rw [masked]
        by_cases long : 64 ≤ message.length
        · exact List.drop_left' (by omega)
        · rw [spent (by omega), apply_nil, List.append_nil]
          exact List.drop_of_length_le (by omega)
      rw [taken, dropped, rest, zipWith_xor_cancel, List.take_append_drop]
      rw [length_block, List.length_take]
      omega

end Crypto.ChaCha20

namespace Crypto.ChaChaPoly

@[simp] theorem length_tag (key : Bytes32) (counter : UInt64) (ad masked : Bytes) :
    (tag key counter ad masked).length = tagLength :=
  Bytes.length_ofNatLE _ _

theorem length_encrypt (key : Bytes32) (counter : UInt64) (ad plaintext : Bytes) :
    (encrypt key counter ad plaintext).length = plaintext.length + tagLength := by
  rw [encrypt, List.length_append, length_tag, ChaCha20.length_apply]

theorem decrypt_encrypt (key : Bytes32) (counter : UInt64) (ad plaintext : Bytes) :
    decrypt key counter ad (encrypt key counter ad plaintext) = some plaintext := by
  have length := length_encrypt key counter ad plaintext
  have long : ¬ (encrypt key counter ad plaintext).length < tagLength := by omega
  have front : (encrypt key counter ad plaintext).length - tagLength =
      (ChaCha20.apply key (nonce counter) 1 plaintext).length := by
    rw [ChaCha20.length_apply]
    omega
  simp only [decrypt, if_neg long, front]
  rw [encrypt, List.take_left, List.drop_left, if_pos rfl, ChaCha20.apply_apply]

end Crypto.ChaChaPoly

namespace Primitives

/-- What was sealed opens again, and a seal adds a tag. -/
structure Sealing (p : Primitives) : Prop where
  decrypt_encrypt : ∀ key nonce ad plaintext,
    p.decrypt key nonce ad (p.encrypt key nonce ad plaintext) = some plaintext
  length_encrypt : ∀ key nonce ad plaintext,
    (p.encrypt key nonce ad plaintext).length = plaintext.length + 16

theorem standard_sealing : Sealing .standard where
  decrypt_encrypt := Crypto.ChaChaPoly.decrypt_encrypt
  length_encrypt := Crypto.ChaChaPoly.length_encrypt

/-- The holders of two private keys agree on a secret. -/
def Agree (p : Primitives) (a b : Bytes32) : Prop :=
  p.agree a (p.publicKey b) = p.agree b (p.publicKey a)

theorem Agree.symm {p : Primitives} {a b : Bytes32} (h : p.Agree a b) : p.Agree b a :=
  Eq.symm h

set_option maxRecDepth 100000 in
/-- A key on which the key agreement agrees with two others. -/
theorem agree_standard : Primitives.standard.Agree (.ofNatLE 7) (.ofNatLE 9) ∧
    Primitives.standard.Agree (.ofNatLE 7) (.ofNatLE 11) := by
  simp only [Agree]
  decide +kernel

end Primitives

end SecureChannel
