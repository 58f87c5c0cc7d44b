import SecureChannel.Bytes

/-!
# The Poly1305 authenticator

The message is read as coefficients of sixteen octets, each with a final one appended, and the
polynomial is evaluated at a secret point modulo `2 ^ 130 - 5`. A second secret is added to the
value, and its low 128 bits are the tag.
-/

namespace SecureChannel.Crypto.Poly1305

def prime : Nat := Nat.pow 2 130 - 5

/-- Clears the bits of the point that the scheme requires to be zero. -/
def clamp (r : Nat) : Nat :=
  r &&& 0x0ffffffc0ffffffc0ffffffc0fffffff

/-- The coefficient of a part: its octets as a number, with a one in front. -/
def coefficient (part : Bytes) : Nat :=
  Bytes.toNatLE part + Nat.pow 256 part.length

/-- The polynomial of the message at a point. -/
def evaluate (point : Nat) (message : Bytes) : Nat :=
  (Bytes.blocks 16 message).foldl (fun sum part => (sum + coefficient part) * point % prime) 0

/-- The tag of a message under a one-time key of 32 octets. -/
def tag (key : Bytes) (message : Bytes) : Bytes :=
  let point := clamp (Bytes.toNatLE (key.take 16))
  let offset := Bytes.toNatLE (key.drop 16)
  Bytes.ofNatLE 16 (evaluate point message + offset)

end SecureChannel.Crypto.Poly1305
