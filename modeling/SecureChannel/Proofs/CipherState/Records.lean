import SecureChannel.Proofs.CipherState.Spending

/-!
# What was sealed and what was opened

A `Seal` and an `Opening` record one successful call of a direction, with the state in which it was
made. What an adversary cannot do is said about such records. `Authentic` relates the octets that
were opened to the octets that were sealed, and `Genuine` says that nothing else was opened. Both
speak of a given run alone, since octets that open under another key exist, and so do octets that
nobody has sealed. The point is that nobody finds them.
-/

namespace SecureChannel

/-- A text that was sealed, and the direction that has sealed it, as it was before. -/
structure Seal where
  sender : CipherState
  ad : Bytes
  plaintext : Bytes
  ciphertext : Bytes

/-- A ciphertext that was opened, and the direction that has opened it, as it was before. -/
structure Opening where
  receiver : CipherState
  ad : Bytes
  ciphertext : Bytes
  plaintext : Bytes
deriving DecidableEq

namespace Seal

def number (e : Seal) : UInt64 := (e.sender.unpack e.ciphertext).1

def octets (e : Seal) : Bytes := (e.sender.unpack e.ciphertext).2

def Made (p : Primitives) (e : Seal) : Prop :=
  ∃ after, e.sender.encrypt p e.ad e.plaintext = .ok (e.ciphertext, after)

theorem Made.octets {p : Primitives} {e : Seal} (made : e.Made p) :
    e.octets = p.encrypt e.sender.key e.number e.ad e.plaintext := by
  obtain ⟨after, sent⟩ := made
  have unpacked := (CipherState.sealed_of_encrypt sent).unpack
  rw [Seal.octets, number, unpacked]

end Seal

namespace Opening

def number (o : Opening) : UInt64 := (o.receiver.unpack o.ciphertext).1

def octets (o : Opening) : Bytes := (o.receiver.unpack o.ciphertext).2

def Made (p : Primitives) (o : Opening) : Prop :=
  ∃ after, o.receiver.decrypt p o.ad o.ciphertext = .ok (o.plaintext, after)

theorem Made.authentic {p : Primitives} {o : Opening} (made : o.Made p) :
    p.decrypt o.receiver.key o.number o.ad o.octets = some o.plaintext := by
  obtain ⟨after, opened⟩ := made
  exact (CipherState.opened_of_decrypt opened).authentic

end Opening

/-- What was opened is not what was sealed under another key, another number or other associated
data. -/
def Authentic (seals : List Seal) (openings : List Opening) : Prop :=
  ∀ e ∈ seals, ∀ o ∈ openings, o.octets = e.octets →
    o.receiver.key = e.sender.key ∧ o.number = e.number ∧ o.ad = e.ad

/-- Whatever was opened had been sealed, under the same key, number and associated data. -/
def Genuine (seals : List Seal) (openings : List Opening) : Prop :=
  ∀ o ∈ openings, ∃ e ∈ seals, o.octets = e.octets ∧ o.receiver.key = e.sender.key ∧
    o.number = e.number ∧ o.ad = e.ad

/-- Octets that were opened as they were sealed give the text back. -/
theorem Opening.plaintext_eq {p : Primitives} (sealing : p.Sealing) {e : Seal} {o : Opening}
    (sealed : e.Made p) (opened : o.Made p) (octets : o.octets = e.octets)
    (key : o.receiver.key = e.sender.key) (number : o.number = e.number) (ad : o.ad = e.ad) :
    o.plaintext = e.plaintext := by
  have plaintext := opened.authentic
  rw [octets, key, number, ad, sealed.octets, sealing.decrypt_encrypt] at plaintext
  exact (Option.some.inj plaintext).symm

/-- Two directions that number messages in the same way open and seal the same octets of a
ciphertext. -/
theorem Opening.octets_eq {e : Seal} {o : Opening}
    (mode : o.receiver.isExplicit = e.sender.isExplicit) (same : o.ciphertext = e.ciphertext) :
    o.octets = e.octets := by
  rw [Opening.octets, Seal.octets, same]
  exact CipherState.unpack_octets_congr mode e.ciphertext

end SecureChannel
