import SecureChannel.Bytes

/-!
# Numbers in octets

Reading the digits of a number gives it back, as far as the width goes. The most significant octet
first is the other order reversed, so both orders have one proof.
-/

namespace SecureChannel.Bytes

theorem toNatLE_ofNatLE (width n : Nat) : toNatLE (ofNatLE width n) = n % Nat.pow 256 width := by
  induction width generalizing n with
  | zero => simp [toNatLE, Nat.mod_one]
  | succ width ih =>
    rw [ofNatLE_succ, toNatLE, ih, UInt8.toNat_ofNat']
    exact (Nat.mod_mul ..).symm.trans (congrArg (n % ·) (Nat.pow_succ' ..).symm)

theorem toNatBE_reverse (bytes : Bytes) : toNatBE bytes.reverse = toNatLE bytes := by
  induction bytes with
  | nil => rfl
  | cons b rest ih =>
    rw [toNatBE, List.reverse_cons, List.foldl_append, ← toNatBE, ih, toNatLE]
    simp [Nat.add_comm]

theorem toNatBE_ofNatBE (width n : Nat) : toNatBE (ofNatBE width n) = n % Nat.pow 256 width := by
  rw [ofNatBE, toNatBE_reverse, toNatLE_ofNatLE]

@[simp] theorem toUInt64_ofUInt64 (n : UInt64) : toUInt64 (ofUInt64 n) = n := by
  have small : n.toNat < Nat.pow 256 8 := n.toNat_lt
  rw [toUInt64, ofUInt64, toNatLE_ofNatLE, Nat.mod_eq_of_lt small, UInt64.ofNat_toNat]

end SecureChannel.Bytes
