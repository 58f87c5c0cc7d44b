import SecureChannel.ChannelId
import SecureChannel.CipherState
import SecureChannel.Error

/-!
# Channels on the server

A channel joins a name with the two directions that a handshake has set up. It remembers when it was
last used, and how many messages in a row it could not open. Times are milliseconds on the server's
clock.

Sealing and opening count as use if they succeed; an opened message also ends a row of failures. A
refused message changes nothing here, and counting it is up to the registry.
-/

namespace SecureChannel

structure Channel where
  id : ChannelId
  pair : CipherPair
  /-- When the channel was made, looked up or successfully used last. -/
  lastUsed : Nat
  /-- How many messages in a row were refused. -/
  authFailures : UInt32
deriving DecidableEq

namespace Channel

def new (id : ChannelId) (pair : CipherPair) (now : Nat) : Channel :=
  ⟨id, pair, now, 0⟩

def touch (c : Channel) (now : Nat) : Channel :=
  { c with lastUsed := now }

def idleFor (c : Channel) (now : Nat) : Nat :=
  now - c.lastUsed

def encrypt (p : Primitives) (c : Channel) (now : Nat) (ad plaintext : Bytes) :
    Except ChannelError Bytes × Channel :=
  match c.pair.encrypter.encrypt p ad plaintext with
  | .ok (ciphertext, encrypter) =>
      (.ok ciphertext, { c.touch now with pair := { c.pair with encrypter := encrypter } })
  | .error e => (.error (.ofCipher e), c)

def decrypt (p : Primitives) (c : Channel) (now : Nat) (ad ciphertext : Bytes) :
    Except ChannelError Bytes × Channel :=
  match c.pair.decrypter.decrypt p ad ciphertext with
  | .ok (plaintext, decrypter) =>
      (.ok plaintext,
        { c.touch now with pair := { c.pair with decrypter := decrypter }, authFailures := 0 })
  | .error e => (.error (.ofCipher e), c)

def describe (c : Channel) : String :=
  s!"Channel \x7b id: {c.id.describe}, auth_failures: {c.authFailures}, .. \x7d"

@[simp] theorem id_encrypt (p : Primitives) (c : Channel) (now : Nat) (ad plaintext : Bytes) :
    (c.encrypt p now ad plaintext).2.id = c.id := by
  unfold encrypt
  split <;> rfl

end Channel

end SecureChannel
