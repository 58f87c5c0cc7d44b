import SecureChannel.Crypto.ChaCha20
import SecureChannel.Crypto.Poly1305

/-!
# Authenticated encryption with ChaCha20 and Poly1305

The message is masked with the key stream from its second block on; the first block is the
one-time key of the authenticator. The tag covers the associated data and the masked message, each
filled up with zeros to sixteen octets, and then both lengths. A sealed message is the masked
message followed by the sixteen octets of its tag, and opening compares the tag first.

Nonces are 64-bit counters, written after four zero octets with the least significant octet first.
-/

namespace SecureChannel.Crypto.ChaChaPoly

def tagLength : Nat := 16

/-- The twelve octets of a counter nonce. -/
def nonce (counter : UInt64) : Bytes :=
  [0, 0, 0, 0] ++ Bytes.ofUInt64 counter

/-- Zeros that fill up a sequence to a multiple of sixteen octets. -/
def filler (data : Bytes) : Bytes :=
  List.replicate ((16 - data.length % 16) % 16) 0

/-- What the tag is computed over. -/
def transcript (ad masked : Bytes) : Bytes :=
  ad ++ filler ad ++ masked ++ filler masked ++
    Bytes.ofNatLE 8 ad.length ++ Bytes.ofNatLE 8 masked.length

def tag (key : Bytes32) (counter : UInt64) (ad masked : Bytes) : Bytes :=
  Poly1305.tag ((ChaCha20.block key 0 (nonce counter)).take 32) (transcript ad masked)

/-- Masks a message and appends its tag. -/
def encrypt (key : Bytes32) (counter : UInt64) (ad plaintext : Bytes) : Bytes :=
  let masked := ChaCha20.apply key (nonce counter) 1 plaintext
  masked ++ tag key counter ad masked

/-- The message under a sealed one, if the tag is right. -/
def decrypt (key : Bytes32) (counter : UInt64) (ad sealed : Bytes) : Option Bytes :=
  if sealed.length < tagLength then none
  else
    let masked := sealed.take (sealed.length - tagLength)
    if tag key counter ad masked = sealed.drop (sealed.length - tagLength) then
      some (ChaCha20.apply key (nonce counter) 1 masked)
    else none

end SecureChannel.Crypto.ChaChaPoly
