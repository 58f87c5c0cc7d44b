import SecureChannel.Crypto.Blake2s
import SecureChannel.Crypto.ChaChaPoly
import SecureChannel.Crypto.X25519

/-!
# The primitives a channel is built from

Everything above this level takes its key agreement, digest and authenticated encryption from a
`Primitives` value and looks at nothing inside them. What the protocol needs of them is therefore
said where it is needed, as a condition on that value. `Primitives.standard` is the value that
channels run with.
-/

namespace SecureChannel

structure Primitives where
  publicKey : Bytes32 → Bytes32
  /-- The secret shared by a private key and another party's public key. -/
  agree : Bytes32 → Bytes32 → Bytes32
  digest : Bytes → Bytes32
  encrypt : (key : Bytes32) → (nonce : UInt64) → (ad plaintext : Bytes) → Bytes
  /-- The plaintext of what was sealed under the same key, nonce and associated data. -/
  decrypt : (key : Bytes32) → (nonce : UInt64) → (ad ciphertext : Bytes) → Option Bytes

namespace Primitives

/-- X25519, BLAKE2s and ChaCha20-Poly1305. -/
def standard : Primitives where
  publicKey := Crypto.X25519.publicKey
  agree := Crypto.X25519.agree
  digest := Crypto.Blake2s.digest
  encrypt := Crypto.ChaChaPoly.encrypt
  decrypt := Crypto.ChaChaPoly.decrypt

/-- The block length of the digest, to which keys of the keyed digest are filled up. -/
def digestBlockLength : Nat := Crypto.Blake2s.blockLength

/-- A key filled up to a block, with every octet masked. -/
def maskedKey (mask : UInt8) (key : Bytes32) : Bytes :=
  (key.toBytes ++ List.replicate (digestBlockLength - 32) 0).map (· ^^^ mask)

/-- The keyed digest: the digest of an outer mask and the digest of an inner mask and the data. -/
def hmac (p : Primitives) (key : Bytes32) (data : Bytes) : Bytes32 :=
  p.digest (maskedKey 0x5c key ++ (p.digest (maskedKey 0x36 key ++ data)).toBytes)

/-- Two values derived from a chaining value and fresh key material. -/
def derive (p : Primitives) (chain : Bytes32) (material : Bytes) : Bytes32 × Bytes32 :=
  let root := p.hmac chain material
  let first := p.hmac root [1]
  (first, p.hmac root (first.toBytes ++ [2]))

end Primitives

end SecureChannel
