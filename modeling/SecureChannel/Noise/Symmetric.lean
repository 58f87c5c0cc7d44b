import SecureChannel.Crypto.Primitives

/-!
# The symmetric state of a handshake

A handshake runs over a chaining value and a transcript digest. Every octet that either party sends
is mixed into the digest; every shared secret is mixed into the chaining value and yields a fresh
key. Once there is a key, payloads are sealed with the transcript so far as associated data. At the
end the chaining value splits into one key for each direction.
-/

namespace SecureChannel.Noise

/-- Chaining value, transcript digest and current key of a handshake. -/
structure Symmetric where
  chain : Bytes32
  hash : Bytes32
  /-- The key that payloads are sealed under, once there is one. -/
  key : Option Bytes32
  nonce : UInt64
deriving DecidableEq

namespace Symmetric

/-- The start of a handshake of the given name: both values are the digest of the name. -/
def start (p : Primitives) (name : String) : Symmetric :=
  let h := p.digest (Bytes.ofText name)
  ⟨h, h, none, 0⟩

def mixHash (p : Primitives) (s : Symmetric) (data : Bytes) : Symmetric :=
  { s with hash := p.digest (s.hash.toBytes ++ data) }

/-- Mixes a shared secret into the chaining value and starts a fresh key. -/
def mixKey (p : Primitives) (s : Symmetric) (secret : Bytes32) : Symmetric :=
  let (chain, key) := p.derive s.chain secret.toBytes
  { s with chain := chain, key := some key, nonce := 0 }

def encryptAndHash (p : Primitives) (s : Symmetric) (payload : Bytes) : Bytes × Symmetric :=
  match s.key with
  | none => (payload, s.mixHash p payload)
  | some key =>
      let sealed := p.encrypt key s.nonce s.hash.toBytes payload
      (sealed, { s.mixHash p sealed with nonce := s.nonce + 1 })

/-- Opens a payload if there is a key, and mixes what was received into the transcript. -/
def decryptAndHash (p : Primitives) (s : Symmetric) (data : Bytes) : Option (Bytes × Symmetric) :=
  match s.key with
  | none => some (data, s.mixHash p data)
  | some key => do
      let payload ← p.decrypt key s.nonce s.hash.toBytes data
      return (payload, { s.mixHash p data with nonce := s.nonce + 1 })

/-- The keys from initiator to responder and from responder to initiator. -/
def split (p : Primitives) (s : Symmetric) : Bytes32 × Bytes32 :=
  p.derive s.chain []

end Symmetric

end SecureChannel.Noise
