import SecureChannel.Crypto.Primitives
import SecureChannel.ReplayWindow

/-!
# Cipher states

One direction of a channel has a key and a counter. Under implicit nonces both ends count in step,
and a ciphertext carries no number. Under explicit nonces the sender puts its counter, as eight
octets with the least significant first, in front of each ciphertext, and the receiver keeps a
replay window in place of a counter.

A sender's counter grows with every message. A receiver's state changes only when a message was
opened, so nothing that fails can move it. The largest counter value is never used.
-/

namespace SecureChannel

inductive CipherError
  | authenticationFailure
  | replay (nonce : UInt64)
  | nonceExhausted
  | encryptionFailed
deriving DecidableEq

namespace CipherError

def message : CipherError → String
  | authenticationFailure => "authentication failure"
  | replay n => s!"replay detected: nonce {n}"
  | nonceExhausted => "nonce space exhausted"
  | encryptionFailed => "encryption failed"

end CipherError

/-- How the two ends of a channel agree on nonces. -/
inductive NonceMode
  /-- Both ends count. -/
  | implicit
  /-- The sender states its counter, and the receiver keeps a window of so many messages. -/
  | explicit (window : UInt64)
deriving DecidableEq

namespace NonceMode

instance : Inhabited NonceMode := ⟨implicit⟩

def window? : NonceMode → Option ReplayWindow
  | implicit => none
  | explicit window => some (ReplayWindow.ofSize window)

end NonceMode

/-- One direction of a channel. -/
structure CipherState where
  key : Bytes32
  nonce : UInt64
  /-- The replay window of a direction with explicit nonces. -/
  window : Option ReplayWindow
deriving DecidableEq

namespace CipherState

def tagLength : Nat := 16

/-- The length of the counter in front of a ciphertext with an explicit nonce. -/
def nonceLength : Nat := 8

/-- The counter value that is never used. -/
def lastNonce : UInt64 := UInt64.ofNat (UInt64.size - 1)

/-- Messages of so many blocks of 64 octets and more are beyond the cipher's block counter. -/
def maxBlocks : Nat := UInt32.size - 1

def tooLong (message : Bytes) : Prop :=
  maxBlocks ≤ message.length / 64

instance (message : Bytes) : Decidable (tooLong message) :=
  inferInstanceAs (Decidable (_ ≤ _))

def new (key : Bytes32) (mode : NonceMode) : CipherState :=
  ⟨key, 0, mode.window?⟩

def isExplicit (s : CipherState) : Bool :=
  s.window.isSome

/-- Seals a plaintext under the next counter. -/
def encrypt (p : Primitives) (s : CipherState) (ad plaintext : Bytes) :
    Except CipherError (Bytes × CipherState) :=
  if s.nonce = lastNonce then .error .nonceExhausted
  else if tooLong plaintext then .error .encryptionFailed
  else
    let ciphertext := p.encrypt s.key s.nonce ad plaintext
    let sealed := if s.isExplicit then Bytes.ofUInt64 s.nonce ++ ciphertext else ciphertext
    .ok (sealed, { s with nonce := s.nonce + 1 })

def openAt (p : Primitives) (s : CipherState) (nonce : UInt64) (ad ciphertext : Bytes) :
    Except CipherError Bytes :=
  if tooLong (ciphertext.drop tagLength) then .error .authenticationFailure
  else
    match p.decrypt s.key nonce ad ciphertext with
    | some plaintext => .ok plaintext
    | none => .error .authenticationFailure

/-- Opens the ciphertext that the counter says comes next. -/
def decryptNext (p : Primitives) (s : CipherState) (ad ciphertext : Bytes) :
    Except CipherError (Bytes × CipherState) := do
  if ciphertext.length < tagLength then throw .authenticationFailure
  if s.nonce = lastNonce then throw .nonceExhausted
  let plaintext ← openAt p s s.nonce ad ciphertext
  return (plaintext, { s with nonce := s.nonce + 1 })

/-- Opens a ciphertext that states its own nonce, if the window holds it for fresh. -/
def decryptStated (p : Primitives) (s : CipherState) (w : ReplayWindow) (ad ciphertext : Bytes) :
    Except CipherError (Bytes × CipherState) := do
  if ciphertext.length < nonceLength + tagLength then throw .authenticationFailure
  let n := Bytes.toUInt64 (ciphertext.take nonceLength)
  if n = lastNonce ∨ w.fresh n = false then throw (.replay n)
  let plaintext ← openAt p s n ad (ciphertext.drop nonceLength)
  return (plaintext, { s with window := some (w.accept n).2 })

/-- Opens a ciphertext. Nothing of it is returned, and nothing changes, unless its tag is right. -/
def decrypt (p : Primitives) (s : CipherState) (ad ciphertext : Bytes) :
    Except CipherError (Bytes × CipherState) :=
  match s.window with
  | none => decryptNext p s ad ciphertext
  | some w => decryptStated p s w ad ciphertext

def describe (s : CipherState) : String :=
  s!"CipherState \x7b nonce: {s.nonce}, explicit: {s.isExplicit}, .. \x7d"

end CipherState

/-- Both directions of one end of a channel. -/
structure CipherPair where
  encrypter : CipherState
  decrypter : CipherState
deriving DecidableEq

namespace CipherPair

def new (sendKey receiveKey : Bytes32) (mode : NonceMode) : CipherPair :=
  ⟨.new sendKey mode, .new receiveKey mode⟩

def describe (pair : CipherPair) : String :=
  s!"CipherStatePair \x7b encrypter: {pair.encrypter.describe}, " ++
    s!"decrypter: {pair.decrypter.describe} \x7d"

end CipherPair

end SecureChannel
